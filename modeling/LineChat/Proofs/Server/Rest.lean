import LineChat.Proofs.Key.Decoding
import LineChat.Proofs.Screen.Running
import LineChat.Proofs.Server.World

set_option autoImplicit false

/-! # Coming to rest

No task goes on forever. `Server.effort` is what is left to do, and every move of every task lowers
it: a key costs more than all the lines that come of it, and a line in a queue more than the moves
that show it. So `Server.settle` makes enough moves, and leaves a server at which every task
waits. -/

namespace LineChat

/-! ## What is left to do for a session -/

/-- One if the connection takes what is written, none if it would hold it up. -/
def Screen.patience (screen : Screen) : Nat :=
  if screen.sink.stalled then 0 else 1

namespace Session

/-- How much there is to do for a session, apart from what is queued. -/
def ownEffort (session : Session) (sessions : Nat) : Nat :=
  session.requests.effort + session.screen.patience
    + stageEffort sessions session.reader session.stage

theorem effort_eq (session : Session) (room : Room) (sessions : Nat) :
    session.effort room sessions
      = session.ownEffort sessions + lineWeight * session.queued room := by
  unfold effort ownEffort Screen.patience
  omega

theorem queued_of_ticket {session : Session} {ticket : Ticket} (h : session.ticket? = some ticket)
    (room : Room) : session.queued room = (room.backlog ticket.place).length := by
  rw [queued, h, Option.bind_some, Room.backlog]
  cases room.seat? ticket.place <;> rfl

theorem queued_of_no_ticket {session : Session} (h : session.ticket? = none) (room : Room) :
    session.queued room = 0 := by
  rw [queued, h]
  rfl

/-- A key costs more than all the lines that may come of it. -/
theorem readingEffort_of_step {reader reader' : KeyReader} {reading? : Option Reading}
    (h : reader.step = some (reader', reading?)) (sessions : Nat) :
    readingEffort sessions reader' + (lineWeight * sessions + 12)
      ≤ readingEffort sessions reader := by
  have hless := KeyReader.effort_lt_of_step h
  have hmul := Nat.mul_le_mul_right (lineWeight * sessions + 12) hless
  rw [Nat.succ_mul] at hmul
  unfold readingEffort
  omega

theorem leavingEffort_lt (sessions : Nat) (reader : KeyReader) :
    leavingEffort sessions < readingEffort sessions reader := by
  unfold readingEffort
  omega

theorem leavingEffort_le_aimEffort (sessions : Nat) (reader : KeyReader) (aim : Aim) :
    leavingEffort sessions ≤ aimEffort sessions reader aim := by
  have hless := leavingEffort_lt sessions reader
  cases aim <;> simp only [aimEffort] <;> omega

end Session

/-! ## Steps of a pen -/

namespace Pen

theorem effort_admitted_le (pen : Pen) (screen : Screen) :
    (pen.admitted screen).effort ≤ pen.effort := by
  cases pen <;> simp [admitted, effort]

variable {online : Nat} {draft : String} {screen screen' : Screen} {busy : Bool} {pen pen' : Pen}

theorem effort_of_called (h : pen.step online draft screen busy = some (.called pen')) :
    pen'.effort < pen.effort := by
  obtain ⟨call, later, rfl, rfl⟩ := called_of_step h
  cases busy <;> simp [effort] <;> omega

theorem effort_of_heldUp (h : pen.step online draft screen busy = some (.heldUp pen' screen')) :
    pen'.effort + screen'.patience < pen.effort + screen.patience := by
  obtain ⟨draw, strokes, strokes', later, rfl, rfl, hfree, hrun⟩ := heldUp_of_step h
  have hheld := Screen.stalled_run hrun
  simp [Screen.patience, hfree, hheld, effort]

theorem effort_of_drew {draw : Draw}
    (h : pen.step online draft screen busy = some (.drew draw pen' screen')) :
    pen'.effort + screen'.patience < pen.effort + screen.patience := by
  obtain ⟨strokes, later, rfl, rfl, hfree, -⟩ := drew_of_step h
  simp only [Screen.patience, hfree, effort, Bool.false_eq_true, if_false]
  split <;> omega

theorem effort_of_failed {fault : IoFault}
    (h : pen.step online draft screen busy = some (.failed fault screen')) :
    screen'.patience < pen.effort + screen.patience := by
  obtain ⟨draw, strokes, later, rfl, hfree, -⟩ := failed_of_step h
  simp only [Screen.patience, hfree, effort, Bool.false_eq_true, if_false]
  split <;> omega

end Pen

theorem Relay.effort_admitted_le (relay : Relay) (screen : Screen) :
    Session.relayEffort (relay.admitted screen) ≤ Session.relayEffort relay := by
  cases relay with
  | drawing pen =>
      have hpen := pen.effort_admitted_le screen
      simp only [Relay.admitted, Session.relayEffort]
      omega
  | absent | waiting | finished => exact Nat.le_refl _

theorem KeyLoop.effort_admitted_le (sessions : Nat) (reader : KeyReader) (keyLoop : KeyLoop)
    (screen : Screen) :
    Session.keyLoopEffort sessions reader (keyLoop.admitted screen)
      ≤ Session.keyLoopEffort sessions reader keyLoop := by
  cases keyLoop with
  | drawing pen aim =>
      have hpen := pen.effort_admitted_le screen
      simp only [KeyLoop.admitted, Session.keyLoopEffort]
      omega
  | reading | leaving _ | draining _ | ended _ => exact Nat.le_refl _

/-! ## Moves lower it -/

namespace Session

/-- What a move does to the effort: the lines that come of it go to every session, and still there
    is less to do. -/
structure Lowers (session : Session) (room : Room) (sessions : Nat) (move : Move) (lines : Nat) :
    Prop where
  backlog : ∀ place, (move.room.backlog place).length ≤ (room.backlog place).length + lines
  own : move.session.effort move.room sessions + lineWeight * lines * sessions
    < session.effort room sessions + lineWeight * lines

section
variable {session : Session} {room : Room} {task : Task} {move : Move} {sessions : Nat}

theorem Lowers.of_quiet (hroom : move.room = room)
    (hticket : move.session.ticket? = session.ticket?)
    (hown : move.session.ownEffort sessions < session.ownEffort sessions) :
    session.Lowers room sessions move 0 where
  backlog := fun _ => hroom ▸ Nat.le_refl _
  own := by
    have hqueued : move.session.queued room = session.queued room := by simp only [queued, hticket]
    rw [hroom, effort_eq, effort_eq, hqueued]
    omega

theorem Lowers.of_op (op : Room.Op) {ticket : Ticket}
    (hroom : move.room = (room.perform op).room) (hbefore : session.ticket? = some ticket)
    (hticket : move.session.ticket? = some ticket)
    (hown : move.session.ownEffort sessions + lineWeight * op.issues * sessions
      < session.ownEffort sessions) : session.Lowers room sessions move op.issues where
  backlog := fun place => hroom ▸ room.length_backlog_perform_le op place
  own := by
    have hbacklog := room.length_backlog_perform_le op ticket.place
    rw [hroom, effort_eq, effort_eq, queued_of_ticket hticket, queued_of_ticket hbefore]
    simp only [lineWeight] at hown ⊢
    omega

theorem ownEffort_of_stage {session : Session} {ticket : Ticket} {keyLoop : KeyLoop}
    {relay : Relay} (hstage : session.stage = .seated ticket keyLoop relay) (sessions : Nat) :
    session.ownEffort sessions
      = session.requests.effort + session.screen.patience
        + (keyLoopEffort sessions session.reader keyLoop + relayEffort relay) := by
  simp only [ownEffort, hstage, stageEffort]

/-- A move that concerns nothing but the tasks, the terminal and the reader. -/
theorem Lowers.of_tasks {ticket : Ticket} {keyLoop keyLoop' : KeyLoop} {relay relay' : Relay}
    (hroom : move.room = room) (hstage : session.stage = .seated ticket keyLoop relay)
    (hstage' : move.session.stage = .seated ticket keyLoop' relay')
    (hrequests : move.session.requests = session.requests)
    (hless : move.session.screen.patience
        + (keyLoopEffort sessions move.session.reader keyLoop' + relayEffort relay')
      < session.screen.patience
        + (keyLoopEffort sessions session.reader keyLoop + relayEffort relay)) :
    session.Lowers room sessions move 0 := by
  refine .of_quiet hroom (by rw [ticket?_of_stage hstage, ticket?_of_stage hstage']) ?_
  rw [ownEffort_of_stage hstage, ownEffort_of_stage hstage', hrequests]
  omega

/-- A move that does something in the room besides. -/
theorem Lowers.of_doing (op : Room.Op) {ticket : Ticket} {keyLoop keyLoop' : KeyLoop}
    {relay relay' : Relay} (hroom : move.room = (room.perform op).room)
    (hstage : session.stage = .seated ticket keyLoop relay)
    (hstage' : move.session.stage = .seated ticket keyLoop' relay')
    (hrequests : move.session.requests = session.requests)
    (hless : move.session.screen.patience
        + (keyLoopEffort sessions move.session.reader keyLoop' + relayEffort relay')
        + lineWeight * op.issues * sessions
      < session.screen.patience
        + (keyLoopEffort sessions session.reader keyLoop + relayEffort relay)) :
    session.Lowers room sessions move op.issues := by
  refine .of_op op hroom (ticket?_of_stage hstage) (ticket?_of_stage hstage') ?_
  rw [ownEffort_of_stage hstage, ownEffort_of_stage hstage', hrequests]
  omega

/-- Joining: the announcement is a line for every queue, the new one among them. -/
theorem Lowers.of_join (hroom : move.room = (room.join session.claimed).room)
    (hbefore : session.ticket? = none)
    (hticket : move.session.ticket? = some (room.join session.claimed).answer)
    (hown : move.session.ownEffort sessions + lineWeight * sessions < session.ownEffort sessions) :
    session.Lowers room sessions move 1 where
  backlog := fun place => hroom ▸ room.length_backlog_perform_le (.join session.claimed) place
  own := by
    have hqueued : ((room.join session.claimed).room.backlog
        (room.join session.claimed).answer.place).length ≤ 1 :=
      room.length_backlog_join_next_le session.claimed
    rw [hroom, effort_eq, effort_eq, queued_of_no_ticket hbefore, queued_of_ticket hticket]
    simp only [lineWeight] at hown ⊢
    omega

/-- Taking a line out of the queue: what it weighed there is enough to show it. -/
theorem Lowers.of_fetch {ticket : Ticket} {text : String}
    (hreceive : room.receive ticket.place = (.line text, move.room))
    (hbefore : session.ticket? = some ticket) (hticket : move.session.ticket? = some ticket)
    (hown : move.session.ownEffort sessions < session.ownEffort sessions + lineWeight) :
    session.Lowers room sessions move 0 where
  backlog := by
    have hroom : move.room = (room.perform (.receive ticket.place)).room :=
      (congrArg Prod.snd hreceive).symm
    exact fun place => hroom ▸ room.length_backlog_perform_le (.receive ticket.place) place
  own := by
    rw [effort_eq, effort_eq, queued_of_ticket hbefore, queued_of_ticket hticket,
      Room.backlog_of_receive hreceive, List.length_cons]
    simp only [lineWeight] at hown ⊢
    omega

theorem Doing.lowers (h : session.Doing room task move) (sessions : Nat) :
    ∃ lines, session.Lowers room sessions move lines := by
  cases h with
  | @answered kind rest hattended hpending =>
      refine ⟨0, .of_quiet rfl rfl ?_⟩
      simp only [ownEffort, RequestQueue.effort, hpending, List.length_cons]
      omega
  | deserted hattended hpending =>
      refine ⟨0, .of_quiet rfl rfl ?_⟩
      simp only [ownEffort, RequestQueue.effort, hattended, if_true, Bool.false_eq_true, if_false]
      omega
  | joined hstage hshell =>
      refine ⟨1, .of_join rfl (ticket?_of_lobby hstage) rfl ?_⟩
      rw [ownEffort_of_stage rfl]
      simp only [ownEffort, hstage, stageEffort, keyLoopEffort, aimEffort, Pen.effort, relayEffort,
        lineWeight, List.length_singleton]
      omega
  | turnedAway hstage hshell hattended =>
      refine ⟨0, .of_quiet rfl (by simp [ticket?, hstage]) ?_⟩
      simp only [ownEffort, hstage, stageEffort]
      omega
  | keysCalled hstage hpen =>
      have hless := Pen.effort_of_called hpen
      refine ⟨0, .of_tasks rfl hstage rfl rfl ?_⟩
      simp only [keyLoopEffort]
      omega
  | keysHeldUp hstage hpen =>
      have hless := Pen.effort_of_heldUp hpen
      refine ⟨0, .of_tasks rfl hstage rfl rfl ?_⟩
      simp only [keyLoopEffort]
      omega
  | @keysDrew ticket pen pen' aim relay screen draw hstage hpen =>
      have hless := Pen.effort_of_drew hpen
      have hrelay := relay.effort_admitted_le screen
      refine ⟨0, .of_tasks rfl hstage rfl rfl ?_⟩
      simp only [keyLoopEffort]
      omega
  | @keysFailed ticket pen aim relay screen fault hstage hpen =>
      have hless := Pen.effort_of_failed hpen
      have hrelay := relay.effort_admitted_le screen
      have haim := leavingEffort_le_aimEffort sessions session.reader aim
      -- before the relay is started, the reader's end is given up as well
      by_cases hopen : aim = .openRelay
      · refine ⟨_, .of_doing (.hangUp ticket.place) (if_pos hopen) hstage rfl rfl ?_⟩
        simp only [keyLoopEffort, Room.Op.issues]
        omega
      · refine ⟨0, .of_tasks (if_neg hopen) hstage rfl rfl ?_⟩
        simp only [keyLoopEffort]
        omega
  | opened hstage | ready hstage | tookLeave hstage =>
      refine ⟨0, .of_tasks rfl hstage rfl rfl ?_⟩
      simp only [keyLoopEffort, aimEffort, Pen.effort, KeyLoop.greeting, relayEffort,
        List.length_cons, List.length_nil]
      omega
  | readOn hstage hread | enteredBlank hstage hread | trimmed hstage hread | appended hstage hread
  | ignored hstage hread =>
      have hless := readingEffort_of_step hread sessions
      refine ⟨0, .of_tasks rfl hstage rfl rfl ?_⟩
      simp only [keyLoopEffort, aimEffort, Pen.effort, KeyLoop.prompting, List.length_cons,
        List.length_nil]
      omega
  | @entered ticket relay reader turn hstage hread hblank hturn =>
      subst hturn
      have hless := readingEffort_of_step hread sessions
      refine ⟨_, .of_doing (.say ticket.id ticket.name (Text.trim session.draft.text)) rfl
        hstage rfl rfl ?_⟩
      simp only [keyLoopEffort, aimEffort, Pen.effort, KeyLoop.showing, Room.Op.issues, lineWeight,
        List.length_cons, List.length_nil] at hless ⊢
      omega
  | acknowledged hstage hread | closedBlank hstage hread | readFailed hstage hread =>
      -- what is left of the input is never read, and pays for the farewell
      have hless := readingEffort_of_step hread sessions
      refine ⟨0, .of_tasks rfl hstage rfl rfl ?_⟩
      simp only [keyLoopEffort, aimEffort, Pen.effort, KeyLoop.showing, List.length_cons,
        List.length_nil]
      unfold readingEffort at hless ⊢
      omega
  | @closed ticket relay reader turn hstage hread hblank hturn =>
      subst hturn
      have hless := readingEffort_of_step hread sessions
      refine ⟨_, .of_doing (.say ticket.id ticket.name (Text.trim session.draft.text)) rfl
        hstage rfl rfl ?_⟩
      simp only [keyLoopEffort, aimEffort, Pen.effort, KeyLoop.showing, Room.Op.issues, lineWeight,
        List.length_cons, List.length_nil]
      unfold readingEffort at hless ⊢
      simp only [lineWeight] at hless ⊢
      omega
  | @left ticket relay outcome hstage =>
      refine ⟨_, .of_doing (.leave ticket.id) rfl hstage rfl rfl ?_⟩
      simp only [keyLoopEffort, leavingEffort, Room.Op.issues, lineWeight]
      omega
  | ended hstage hover =>
      refine ⟨0, .of_quiet rfl (ticket?_of_stage hstage).symm ?_⟩
      have hpatience : session.screen.shutdown.2.patience = session.screen.patience := rfl
      rw [ownEffort_of_stage hstage, ownEffort_of_stage rfl, hpatience]
      simp only [RequestQueue.effort, keyLoopEffort, Bool.false_eq_true, if_false]
      omega
  | fetched hstage hreceive =>
      refine ⟨0, .of_fetch hreceive (ticket?_of_stage hstage) rfl ?_⟩
      rw [ownEffort_of_stage hstage, ownEffort_of_stage rfl]
      simp only [relayEffort, Pen.effort, lineWeight, List.length_cons, List.length_nil]
      omega
  | @relayEnded ticket keyLoop room' receipt hstage hreceive =>
      have hroom' : room' = (room.perform (.receive ticket.place)).room :=
        (congrArg Prod.snd hreceive).symm
      refine ⟨_, .of_doing (.receive ticket.place) hroom' hstage rfl rfl ?_⟩
      simp only [relayEffort, Room.Op.issues]
      omega
  | relayCalled hstage hpen =>
      have hless := Pen.effort_of_called hpen
      refine ⟨0, .of_tasks rfl hstage rfl rfl ?_⟩
      simp only [relayEffort]
      omega
  | relayHeldUp hstage hpen =>
      have hless := Pen.effort_of_heldUp hpen
      refine ⟨0, .of_tasks rfl hstage rfl rfl ?_⟩
      simp only [relayEffort]
      omega
  | @relayDrew ticket keyLoop pen pen' screen draw hstage hpen =>
      have hless := Pen.effort_of_drew hpen
      have hkeys := keyLoop.effort_admitted_le sessions session.reader screen
      refine ⟨0, .of_tasks rfl hstage rfl rfl ?_⟩
      simp only [relayEffort]
      omega
  | @relayFailed ticket keyLoop pen screen fault hstage hpen =>
      have hless := Pen.effort_of_failed hpen
      have hkeys := keyLoop.effort_admitted_le sessions session.reader screen
      refine ⟨_, .of_doing (.hangUp ticket.place) rfl hstage rfl rfl ?_⟩
      simp only [relayEffort, Room.Op.issues]
      omega
  | relayReady hstage =>
      refine ⟨0, .of_tasks rfl hstage rfl rfl ?_⟩
      simp only [relayEffort, Pen.effort, List.length_nil]
      omega

end

end Session

/-! ## The whole server -/

theorem foldr_add_le {α : Type} (f g : α → Nat) (c : Nat) {l : List α}
    (h : ∀ x ∈ l, g x ≤ f x + c) :
    l.foldr (fun x n => g x + n) 0 ≤ l.foldr (fun x n => f x + n) 0 + c * l.length := by
  induction l with
  | nil => exact Nat.zero_le _
  | cons x l ih =>
      have hx := h x List.mem_cons_self
      have hrest := ih fun y hy => h y (List.mem_cons_of_mem x hy)
      simp only [List.foldr_cons, List.length_cons, Nat.mul_succ]
      omega

/-- A sum in which one summand is replaced and the others get larger by `c` at most. -/
theorem foldr_add_set_le {α : Type} (f g : α → Nat) (c : Nat) {l : List α} {k : Nat} {a : α}
    (hk : l[k]? = some a) (hothers : ∀ x ∈ l, g x ≤ f x + c) (b : α) :
    (l.set k b).foldr (fun x n => g x + n) 0 + f a + c
      ≤ l.foldr (fun x n => f x + n) 0 + g b + c * l.length := by
  induction l generalizing k with
  | nil => simp at hk
  | cons x l ih =>
      have hx := hothers x List.mem_cons_self
      have htail : ∀ y ∈ l, g y ≤ f y + c := fun y hy => hothers y (List.mem_cons_of_mem x hy)
      cases k with
      | zero =>
          obtain rfl : x = a := by simpa using hk
          have hrest := foldr_add_le f g c htail
          simp only [List.set_cons_zero, List.foldr_cons, List.length_cons, Nat.mul_succ]
          omega
      | succ k =>
          have hrest := ih hk htail
          simp only [List.set_cons_succ, List.foldr_cons, List.length_cons, Nat.mul_succ]
          omega

namespace Server

/-- Every move leaves less to do. -/
theorem effort_lt_of_step {server server' : Server} {ref : TaskRef}
    (hstep : server.step ref = some server') : server'.effort < server.effort := by
  unfold step at hstep
  cases hsession : server.sessions[ref.session]? with
  | none => simp [hsession] at hstep
  | some session =>
      simp only [hsession] at hstep
      obtain ⟨move, hmove, rfl⟩ := Option.map_eq_some_iff.1 hstep
      obtain ⟨lines, hbacklog, hown⟩ :=
        (Session.doing_of_step hmove).lowers server.sessions.length
      have hothers : ∀ other ∈ server.sessions,
          Session.effort other move.room server.sessions.length
            ≤ Session.effort other server.room server.sessions.length + lineWeight * lines := by
        intro other _
        rw [Session.effort_eq, Session.effort_eq]
        cases hticket : other.ticket? with
        | none =>
            rw [Session.queued_of_no_ticket hticket, Session.queued_of_no_ticket hticket]
            omega
        | some ticket =>
            have hthis := hbacklog ticket.place
            rw [Session.queued_of_ticket hticket, Session.queued_of_ticket hticket]
            simp only [lineWeight]
            omega
      have hsum := foldr_add_set_le _ _ _ hsession hothers move.session
      show (server.sessions.set ref.session move.session).foldr (fun s effort =>
        s.effort move.room (server.sessions.set ref.session move.session).length + effort) 0
          < server.effort
      rw [List.length_set, effort]
      omega

/-! ## Taking turns -/

theorem step_of_firstMove? {server server' : Server} {refs : List TaskRef} {ref : TaskRef}
    (h : server.firstMove? refs = some (ref, server')) : server.step ref = some server' := by
  obtain ⟨ref', -, hmove⟩ := List.exists_of_findSome?_eq_some h
  obtain ⟨server'', hstep, heq⟩ := Option.map_eq_some_iff.1 hmove
  obtain ⟨rfl, rfl⟩ := Prod.mk.inj heq
  exact hstep

theorem atRest_of_firstMove? {server : Server} {turn? : Option TaskRef}
    (h : server.firstMove? (turn?.toList ++ server.tasks) = none) : server.atRest = true := by
  rw [firstMove?, List.findSome?_append, Option.or_eq_none_iff] at h
  rw [atRest, firstMove?, h.2]
  rfl

/-- With as many moves as there is effort, every task comes to wait. -/
theorem atRest_settleWithin {n : Nat} {turn? : Option TaskRef} {server : Server}
    (hn : server.effort ≤ n) : (settleWithin n turn? server).atRest = true := by
  induction n generalizing turn? server with
  | zero =>
      cases hmove : server.firstMove? (turn?.toList ++ server.tasks) with
      | none => exact atRest_of_firstMove? hmove
      | some next =>
          have hless := effort_lt_of_step (step_of_firstMove? hmove)
          omega
  | succ n ih =>
      rw [settleWithin]
      cases hmove : server.firstMove? (turn?.toList ++ server.tasks) with
      | none => exact atRest_of_firstMove? hmove
      | some next =>
          have hless := effort_lt_of_step (step_of_firstMove? hmove)
          exact ih (by omega)

theorem atRest_settle (server : Server) : server.settle.atRest = true :=
  atRest_settleWithin (Nat.le_refl _)

/-- In a server at rest no task of any session has a move. -/
theorem step_eq_none_of_atRest {server : Server} (h : server.atRest = true) {i : Nat}
    {session : Session} (hsession : server.sessions[i]? = some session) (task : Task) :
    session.step server.room task = none := by
  rw [atRest, Option.isNone_iff_eq_none, firstMove?, List.findSome?_eq_none_iff] at h
  have hmem : (⟨i, task⟩ : TaskRef) ∈ server.tasks := by
    have hi := (List.getElem?_eq_some_iff.1 hsession).1
    rw [tasks, List.mem_flatMap]
    refine ⟨task, ?_, List.mem_map.2 ⟨i, List.mem_range.2 hi, rfl⟩⟩
    cases task <;> simp
  have hnone := h _ hmem
  rw [Option.map_eq_none_iff, step, hsession] at hnone
  exact Option.map_eq_none_iff.1 hnone

end Server

namespace World

/-- The world when every task has come to wait. -/
def settled (world : World) : World :=
  { world with server := world.server.settle }

theorem run_settleWithin (n : Nat) (turn? : Option TaskRef) (world : World) :
    ∃ refs : List TaskRef, world.run (refs.map .move)
      = some { world with server := Server.settleWithin n turn? world.server } := by
  induction n generalizing turn? world with
  | zero => exact ⟨[], rfl⟩
  | succ n ih =>
      rw [Server.settleWithin]
      cases hmove : world.server.firstMove? (turn?.toList ++ world.server.tasks) with
      | none => exact ⟨[], rfl⟩
      | some next =>
          obtain ⟨ref, server⟩ := next
          obtain ⟨refs, hrefs⟩ := ih (some ref) { world with server }
          refine ⟨ref :: refs, ?_⟩
          rw [List.map_cons, run, happen, Server.step_of_firstMove? hmove]
          exact hrefs

/-- Letting the tasks take turns is a run. -/
theorem run_settled (world : World) :
    ∃ refs : List TaskRef, world.run (refs.map .move) = some world.settled :=
  run_settleWithin _ none world

/-- The world after these have come from outside, each of them when every task waits. -/
def reactions (world : World) : List Server.Stimulus → Option World
  | [] => some world
  | stimulus :: later =>
    (world.happen (.stimulus stimulus)).bind fun next => next.settled.reactions later

/-- What comes of stimuli comes of a run. -/
theorem exists_run_of_reactions {world world' : World} {stimuli : List Server.Stimulus}
    (h : world.reactions stimuli = some world') : ∃ history, world.run history = some world' := by
  induction stimuli generalizing world with
  | nil => exact ⟨[], h⟩
  | cons stimulus later ih =>
      obtain ⟨next, hnext, hlater⟩ := Option.bind_eq_some_iff.1 h
      obtain ⟨refs, hrefs⟩ := next.run_settled
      obtain ⟨history, hhistory⟩ := ih hlater
      refine ⟨.stimulus stimulus :: (refs.map .move ++ history), ?_⟩
      rw [run, hnext, Option.bind_some, run_append, hrefs, Option.bind_some, hhistory]

end World

end LineChat
