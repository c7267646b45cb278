import LineChat.Proofs.Room.Numbers
import LineChat.Proofs.Room.Reach

set_option autoImplicit false

/-! # The law of delivery

A history of a room is a list of deeds: operations, each with the time at which it is carried out.
The `log` of a history is what the room had to say in it, line by line, and what the law is about
is how much of that reaches a participant. It is everything from the announcement of the
participant itself until the participant leaves, except for what the participant says, and except
for what comes while the queue is full (`Issue.Reaches`). Every line comes once and in the order of
the log: first what has been taken out of the queue, and then what is still in it.

The proof follows the participant through three stretches of the history: there is no seat before
it joins, then it is `Present`, and once it has left it is `Gone` for good. -/

namespace LineChat

namespace Room

/-! ## Histories -/

/-- An operation, and the time at which it is carried out. -/
structure Deed where
  stamp : String
  op : Op

/-- The room at another time. -/
def stamped (room : Room) (stamp : String) : Room :=
  { room with stamp }

/-- Carries out an operation at its time. -/
def doing (room : Room) (deed : Deed) : Turn Answer :=
  (room.stamped deed.stamp).perform deed.op

/-- The room after a history. -/
def after (room : Room) : List Deed → Room
  | [] => room
  | deed :: deeds => (room.doing deed).room.after deeds

/-- How many join in a history. -/
def joins (deeds : List Deed) : Nat :=
  (deeds.map fun deed => deed.op.joins).sum

/-- What has been taken out of the queue at a place in the course of a history. -/
def received (place : Place) (room : Room) : List Deed → List String
  | [] => []
  | deed :: deeds =>
    taken place deed.op (room.doing deed).answer ++ received place (room.doing deed).room deeds

@[simp] theorem after_append (room : Room) (deeds deeds' : List Deed) :
    room.after (deeds ++ deeds') = (room.after deeds).after deeds' := by
  induction deeds generalizing room with
  | nil => rfl
  | cons deed deeds ih => exact ih _

theorem received_append (place : Place) (room : Room) (deeds deeds' : List Deed) :
    received place room (deeds ++ deeds')
      = received place room deeds ++ received place (room.after deeds) deeds' := by
  induction deeds generalizing room with
  | nil => rfl
  | cons deed deeds ih =>
      show _ ++ received place _ (deeds ++ deeds') = (_ ++ _) ++ _
      rw [ih, List.append_assoc]
      rfl

@[simp] theorem joins_append (deeds deeds' : List Deed) :
    joins (deeds ++ deeds') = joins deeds + joins deeds' := by
  simp [joins]

@[simp] theorem joins_cons (deed : Deed) (deeds : List Deed) :
    joins (deed :: deeds) = deed.op.joins + joins deeds := by
  simp [joins]

/-! ## The log -/

/-- A line that the room hands out. -/
structure Issue where
  line : String
  /-- Whose words they are, if they are not the room's own. -/
  source? : Option ParticipantId
  /-- How many lines are queued at each place at that moment. -/
  queued : Place → Nat

/-- Whether a line is meant for a participant who is present, and the queue has a place for it. -/
def Issue.Reaches (issue : Issue) (ticket : Ticket) : Prop :=
  issue.source? ≠ some ticket.id ∧ issue.queued ticket.place < Outbox.capacity

instance (issue : Issue) (ticket : Ticket) : Decidable (issue.Reaches ticket) :=
  inferInstanceAs (Decidable (_ ∧ _))

/-- The line that an operation makes the room hand out: a notice when somebody joins, a notice when
    somebody leaves who is registered, and the line that a text has become. -/
def issue? (room : Room) (deed : Deed) : Option Issue :=
  let queued := fun place => (room.backlog place).length
  match deed.op, (room.doing deed).answer with
  | .join _, .joined ticket =>
    some ⟨Line.notice deed.stamp (Line.joined ticket.name), none, queued⟩
  | .leave id, _ =>
    (room.member? id).map fun member =>
      ⟨Line.notice deed.stamp (Line.left member.seat.name), none, queued⟩
  | .say id _ _, .said line => some ⟨line, some id, queued⟩
  | _, _ => none

/-- Everything that a room hands out in the course of a history, in order. -/
def log (room : Room) : List Deed → List Issue
  | [] => []
  | deed :: deeds => (room.issue? deed).toList ++ (room.doing deed).room.log deeds

theorem log_append (room : Room) (deeds deeds' : List Deed) :
    room.log (deeds ++ deeds') = room.log deeds ++ (room.after deeds).log deeds' := by
  induction deeds generalizing room with
  | nil => rfl
  | cons deed deeds ih =>
      show _ ++ log _ (deeds ++ deeds') = (_ ++ _) ++ _
      rw [ih, List.append_assoc]
      rfl

/-- The lines of a log that reach a participant who is present. -/
def reaching (ticket : Ticket) (issues : List Issue) : List String :=
  (issues.filter fun issue => issue.Reaches ticket).map Issue.line

@[simp] theorem reaching_append (ticket : Ticket) (issues issues' : List Issue) :
    reaching ticket (issues ++ issues') = reaching ticket issues ++ reaching ticket issues' := by
  simp [reaching]

/-! ## Numbers in the course of a history -/

theorem Numbered.stamped {room : Room} {joins : Nat} (h : room.Numbered joins) (stamp : String) :
    (room.stamped stamp).Numbered joins := ⟨h.lastSeq, h.ids⟩

theorem Numbered.doing {room : Room} {joins : Nat} (h : room.Numbered joins) (deed : Deed) :
    (room.doing deed).room.Numbered (joins + deed.op.joins) :=
  (h.stamped deed.stamp).perform deed.op

theorem Numbered.after {room : Room} {n : Nat} (h : room.Numbered n) (deeds : List Deed) :
    (room.after deeds).Numbered (n + joins deeds) := by
  induction deeds generalizing room n with
  | nil => exact h
  | cons deed deeds ih =>
      rw [joins_cons, ← Nat.add_assoc]
      exact ih (h.doing deed)

/-! ## What reaches a participant -/

/-- A participant is in the room and reads the queue. -/
def Present (room : Room) (ticket : Ticket) : Prop :=
  ∃ seat, room.seat? ticket.place = some seat ∧ seat.id = ticket.id ∧ seat.registered = true
    ∧ seat.outbox.receiving = true

theorem Present.deliveredTo_round {room : Room} {ticket : Ticket} (h : room.Present ticket)
    (issue : Issue) (hqueued : issue.queued ticket.place = (room.backlog ticket.place).length) :
    deliveredTo ticket.place (deliveries room.registry issue.source? issue.line)
      = reaching ticket [issue] := by
  obtain ⟨seat, hseat, hid, hreg, hrec⟩ := h
  rw [backlog_of_seat? hseat] at hqueued
  have hreach : issue.Reaches ticket ↔ issue.source? ≠ some ticket.id ∧ seat.outbox.Accepts := by
    simp [Issue.Reaches, Outbox.Accepts, hqueued, hrec]
  rw [deliveredTo_deliveries, hseat]
  by_cases hr : issue.Reaches ticket
  · simp [reaching, hr, hreach.1 hr, hreg, hid]
  · simp [reaching, hr, ← hreach, hid]

/-- Whoever is present stays present when another number is struck from the registry. -/
theorem Present.struck {room : Room} {ticket : Ticket} (h : room.Present ticket)
    {id : ParticipantId} (hid : id ≠ ticket.id) : (room.struck id).Present ticket := by
  obtain ⟨seat, hseat, hthis, hreg, hrec⟩ := h
  have hother : ¬ seat.id = id := fun heq => hid (heq.symm.trans hthis)
  refine ⟨seat, ?_, hthis, hreg, hrec⟩
  rw [seat?_struck, hseat, Option.map_some, if_neg hother]

theorem Present.enrol {room : Room} {ticket : Ticket} (h : room.Present ticket)
    (hid : room.nextId ≠ ticket.id) (name : String) : (room.enrol name).1.Present ticket := by
  obtain ⟨seat, hseat, hrest⟩ := h.struck hid
  obtain ⟨_, hold, -⟩ := h
  exact ⟨seat, by rw [seat?_enrol, if_neg (ne_nextPlace hold), hseat], hrest⟩

/-- Whoever is present gets what the room hands out, as far as it reaches. -/
theorem Present.deliveredTo_doing {room : Room} {ticket : Ticket} (h : room.Present ticket)
    {deed : Deed} (hstrikes : room.strikes? deed.op ≠ some ticket.id) :
    deliveredTo ticket.place (room.doing deed).events = reaching ticket (room.issue? deed).toList := by
  obtain ⟨stamp, op⟩ := deed
  have hstamped : (room.stamped stamp).Present ticket := h
  cases op with
  | join name =>
      have hpresent := hstamped.enrol (fun heq => hstrikes (congrArg some heq)) name
      refine hpresent.deliveredTo_round ⟨(room.stamped stamp).joinLine name, none, _⟩ ?_
      rw [backlog_enrol]
      rfl
  | leave id =>
      show deliveredTo ticket.place ((room.stamped stamp).leave id).events = _
      -- there is a notice if there is somebody to leave
      cases hmember : (room.stamped stamp).member? id with
      | none =>
          have hissue : room.issue? ⟨stamp, .leave id⟩ = none := by
            show (room.member? id).map _ = none
            rw [show room.member? id = none from hmember, Option.map_none]
          rw [leave_of_not_member hmember, hissue]
          rfl
      | some member =>
          have hissue : room.issue? ⟨stamp, .leave id⟩
              = some ⟨(room.stamped stamp).leaveLine member.seat, none,
                  fun place => (room.backlog place).length⟩ := by
            show (room.member? id).map _ = _
            rw [show room.member? id = some member from hmember]
            rfl
          have hpresent := hstamped.struck fun heq => hstrikes (congrArg some heq)
          rw [leave_of_member hmember, hissue]
          refine hpresent.deliveredTo_round
            ⟨(room.stamped stamp).leaveLine member.seat, none, _⟩ ?_
          rw [backlog_struck]
          rfl
  | say id fallback text =>
      exact hstamped.deliveredTo_round
        ⟨(room.stamped stamp).sayLine id fallback text, some id, _⟩ rfl
  | receive _ | drain _ | hangUp _ => rfl

theorem Present.doing {room : Room} {ticket : Ticket} (h : room.Present ticket) {deed : Deed}
    (hstrikes : room.strikes? deed.op ≠ some ticket.id)
    (hhang : deed.op ≠ .hangUp ticket.place) : (room.doing deed).room.Present ticket := by
  obtain ⟨seat, hseat, hid, hreg, hrec⟩ := h
  have hstamped : (room.stamped deed.stamp).seat? ticket.place = some seat := hseat
  obtain ⟨seat', hseat', hkeeps⟩ := seat?_perform deed.op hstamped
  have hstay : (room.stamped deed.stamp).strikes? deed.op ≠ some seat.id := hid.symm ▸ hstrikes
  exact ⟨seat', hseat', hkeeps.id.trans hid, hkeeps.registered.2 ⟨hreg, hstay⟩,
    hkeeps.receiving.2 ⟨hrec, hhang⟩⟩

theorem Gone.doing {room : Room} {place : Place} (h : room.Gone place) (deed : Deed) :
    deliveredTo place (room.doing deed).events = [] ∧ (room.doing deed).room.Gone place := by
  have hstamped : (room.stamped deed.stamp).Gone place := h
  exact hstamped.perform deed.op

/-- Whoever leaves is not told about it, and is gone. -/
theorem Present.gone_of_leave {room : Room} {ticket : Ticket} (h : room.Present ticket)
    {deed : Deed} (hleave : deed.op = .leave ticket.id) :
    deliveredTo ticket.place (room.doing deed).events = []
      ∧ (room.doing deed).room.Gone ticket.place := by
  obtain ⟨seat, hseat, hid, -, -⟩ := h
  obtain ⟨stamp, op⟩ := deed
  obtain rfl : op = .leave ticket.id := hleave
  have hstamped : (room.stamped stamp).seat? ticket.place = some seat := hseat
  rw [← hid]
  refine ⟨deliveredTo_leave_self hstamped, ?_⟩
  obtain ⟨seat', hseat', hkeeps⟩ := seat?_perform (.leave seat.id) hstamped
  refine ⟨seat', hseat', ?_⟩
  rw [Bool.eq_false_iff]
  exact fun hreg' => (hkeeps.registered.1 hreg').2 rfl

/-- Whoever joins is present, and finds the announcement in an empty queue. -/
theorem present_join (room : Room) (stamp name : String) {ticket : Ticket}
    (hticket : (room.doing ⟨stamp, .join name⟩).answer = .joined ticket) :
    (room.doing ⟨stamp, .join name⟩).room.Present ticket
      ∧ room.backlog ticket.place = []
      ∧ deliveredTo ticket.place (room.doing ⟨stamp, .join name⟩).events
          = [Line.notice stamp (Line.joined ticket.name)]
      ∧ reaching ticket (room.issue? ⟨stamp, .join name⟩).toList
          = [Line.notice stamp (Line.joined ticket.name)] := by
  obtain rfl : ticket = ((room.stamped stamp).enrol name).2 := (Answer.joined.inj hticket).symm
  have hbacklog : room.backlog ((room.stamped stamp).enrol name).2.place = [] :=
    backlog_of_seat?_eq_none room.seat?_nextPlace
  have hreach : ∀ queued : Place → Nat,
      queued ((room.stamped stamp).enrol name).2.place = 0 →
      reaching ((room.stamped stamp).enrol name).2
          [⟨(room.stamped stamp).joinLine name, none, queued⟩]
        = [(room.stamped stamp).joinLine name] := by
    intro queued hqueued
    simp [reaching, Issue.Reaches, hqueued, Outbox.capacity]
  refine ⟨?_, hbacklog, ?_, hreach _ (by rw [hbacklog]; rfl)⟩
  · obtain ⟨seat, hseat, hid, -, hreg, hrec⟩ := (room.stamped stamp).seat?_join_next name
    exact ⟨seat, hseat, hid, hreg, hrec⟩
  · exact (room.stamped stamp).deliveredTo_join_self name

/-! ## Whole histories -/

/-- As long as numbers do not start over, only leaving strikes a number that somebody has. -/
theorem Present.strikes?_ne {room : Room} {n : Nat} {ticket : Ticket} (hpresent : room.Present ticket)
    (h : room.Numbered n) (hn : n < 2 ^ 64) {op : Op} (hleave : op ≠ .leave ticket.id) :
    room.strikes? op ≠ some ticket.id := by
  obtain ⟨seat, hseat, hid, -⟩ := hpresent
  cases op with
  | join name =>
      intro hnext
      exact h.ne_nextId hn hseat (hid.trans (Option.some.inj hnext).symm)
  | leave id => exact fun heq => hleave (congrArg Op.leave (Option.some.inj heq))
  | say _ _ _ | receive _ | drain _ | hangUp _ => nofun

theorem taken_append_backlog_doing (room : Room) {deed : Deed} {place : Place}
    (hhang : deed.op ≠ .hangUp place) :
    taken place deed.op (room.doing deed).answer ++ (room.doing deed).room.backlog place
      = room.backlog place ++ deliveredTo place (room.doing deed).events :=
  taken_append_backlog hhang (room.stamped deed.stamp)

theorem received_cons_append_backlog (place : Place) (room : Room) (deed : Deed)
    (deeds : List Deed) :
    received place room (deed :: deeds) ++ (room.after (deed :: deeds)).backlog place
      = taken place deed.op (room.doing deed).answer
          ++ (received place (room.doing deed).room deeds
            ++ ((room.doing deed).room.after deeds).backlog place) := by
  rw [← List.append_assoc]
  rfl

theorem received_of_present {room : Room} {n : Nat} (h : room.Numbered n) {ticket : Ticket}
    (hpresent : room.Present ticket) (deeds : List Deed) (hn : n + joins deeds < 2 ^ 64)
    (hleave : ∀ deed ∈ deeds, deed.op ≠ .leave ticket.id)
    (hhang : ∀ deed ∈ deeds, deed.op ≠ .hangUp ticket.place) :
    received ticket.place room deeds ++ (room.after deeds).backlog ticket.place
        = room.backlog ticket.place ++ reaching ticket (room.log deeds)
      ∧ (room.after deeds).Present ticket := by
  induction deeds generalizing room n with
  | nil => exact ⟨by simp [received, after, log, reaching], hpresent⟩
  | cons deed deeds ih =>
      rw [joins_cons, ← Nat.add_assoc] at hn
      have hhang' := hhang deed List.mem_cons_self
      have hstrikes := hpresent.strikes?_ne h (by omega) (hleave deed List.mem_cons_self)
      obtain ⟨hrest, hpresent'⟩ := ih (h.doing deed) (hpresent.doing hstrikes hhang') hn
        (fun d hd => hleave d (List.mem_cons_of_mem _ hd))
        (fun d hd => hhang d (List.mem_cons_of_mem _ hd))
      refine ⟨?_, hpresent'⟩
      calc received ticket.place room (deed :: deeds)
            ++ (room.after (deed :: deeds)).backlog ticket.place
          = taken ticket.place deed.op (room.doing deed).answer
              ++ (room.doing deed).room.backlog ticket.place
              ++ reaching ticket ((room.doing deed).room.log deeds) := by
            rw [received_cons_append_backlog, hrest, List.append_assoc]
        _ = room.backlog ticket.place ++ (reaching ticket (room.issue? deed).toList
              ++ reaching ticket ((room.doing deed).room.log deeds)) := by
            rw [taken_append_backlog_doing room hhang', hpresent.deliveredTo_doing hstrikes,
              List.append_assoc]
        _ = room.backlog ticket.place ++ reaching ticket (room.log (deed :: deeds)) := by
            rw [← reaching_append]
            rfl

theorem received_of_gone {room : Room} {place : Place} (hgone : room.Gone place)
    (deeds : List Deed) (hhang : ∀ deed ∈ deeds, deed.op ≠ .hangUp place) :
    received place room deeds ++ (room.after deeds).backlog place = room.backlog place := by
  induction deeds generalizing room with
  | nil => rfl
  | cons deed deeds ih =>
      obtain ⟨hnothing, hgone'⟩ := hgone.doing deed
      have hrest := ih hgone' fun d hd => hhang d (List.mem_cons_of_mem _ hd)
      rw [received_cons_append_backlog, hrest,
        taken_append_backlog_doing room (hhang deed List.mem_cons_self), hnothing, List.append_nil]

/-- The notice about a participant's own leaving, and all that comes after it, is not received. -/
theorem received_of_leaving {room : Room} {ticket : Ticket} (hpresent : room.Present ticket)
    (deeds : List Deed) (hleft : ∀ deed ∈ deeds.head?, deed.op = .leave ticket.id)
    (hhang : ∀ deed ∈ deeds, deed.op ≠ .hangUp ticket.place) :
    received ticket.place room deeds ++ (room.after deeds).backlog ticket.place
      = room.backlog ticket.place := by
  cases deeds with
  | nil => rfl
  | cons deed deeds =>
      obtain ⟨hnothing, hgone⟩ := hpresent.gone_of_leave (hleft deed rfl)
      have hrest := received_of_gone hgone deeds fun d hd => hhang d (List.mem_cons_of_mem _ hd)
      rw [received_cons_append_backlog, hrest,
        taken_append_backlog_doing room (hhang deed List.mem_cons_self), hnothing, List.append_nil]

/-- Nothing is taken out of a queue that is not there. -/
theorem received_of_absent {room : Room} {place : Place} {deeds : List Deed}
    (h : room.seats.length + joins deeds ≤ place.index) : received place room deeds = [] := by
  induction deeds generalizing room with
  | nil => rfl
  | cons deed deeds ih =>
      rw [joins_cons, ← Nat.add_assoc] at h
      have hfree : room.seats.length ≤ place.index := by omega
      have hstamped : (room.stamped deed.stamp).seat? place = none := List.getElem?_eq_none hfree
      have hlength : (room.doing deed).room.seats.length = room.seats.length + deed.op.joins :=
        (room.stamped deed.stamp).length_perform deed.op
      have htaken : taken place deed.op (room.doing deed).answer = [] :=
        taken_of_seat?_eq_none hstamped deed.op
      show _ ++ received place (room.doing deed).room deeds = []
      rw [htaken, ih (hlength.symm ▸ h), List.nil_append]

/-! ## The law -/

/-- What somebody has received and what is still queued are together, line by line and in order,
    what the room handed out from the announcement of that participant on until the participant
    left, but for what it said itself and for what found the queue full. The announcement is the
    first line. -/
theorem received_append_queued (stamp : String) (picker : ColorPicker)
    (before during rest : List Deed) (time name : String) (ticket : Ticket) :
    let opened := empty stamp picker
    let room := opened.after before
    let stay := ⟨time, .join name⟩ :: during
    let history := before ++ (stay ++ rest)
    (room.doing ⟨time, .join name⟩).answer = .joined ticket →
    (∀ deed ∈ during, deed.op ≠ .leave ticket.id) →
    (∀ deed ∈ rest.head?, deed.op = .leave ticket.id) →
    (∀ deed ∈ during ++ rest, deed.op ≠ .hangUp ticket.place) →
    joins history < 2 ^ 64 →
    opened.log history = opened.log before ++ (room.log stay ++ (room.after stay).log rest)
      ∧ received ticket.place opened history ++ (opened.after history).backlog ticket.place
          = ((room.log stay).filter fun issue =>
              issue.source? ≠ some ticket.id ∧ issue.queued ticket.place < 16).map Issue.line
      ∧ (received ticket.place opened history
            ++ (opened.after history).backlog ticket.place).head?
          = some (Line.notice time (Line.joined ticket.name)) := by
  intro opened room stay history hticket hstay hleft hread hjoins
  have hjoins' : joins before + (1 + joins during + joins rest) < 2 ^ 64 := by
    simpa only [history, stay, joins_append, joins_cons, Op.joins] using hjoins
  have hroom : room.Numbered (joins before) := by
    have hafter := (numbered_empty stamp picker).after before
    rwa [Nat.zero_add] at hafter
  have hplace : ticket.place = ⟨joins before⟩ := by
    obtain rfl : ticket = ((room.stamped time).enrol name).2 := (Answer.joined.inj hticket).symm
    exact congrArg Place.mk hroom.length
  obtain ⟨hpresent, hempty, hfirst, hreach⟩ := room.present_join time name hticket
  have hjoined : (room.doing ⟨time, .join name⟩).room.Numbered (joins before + 1) :=
    hroom.doing ⟨time, .join name⟩
  -- no seat, then present, then gone
  have hbefore : received ticket.place opened before = [] := by
    refine received_of_absent ?_
    rw [hplace]
    exact Nat.le_of_eq (Nat.zero_add _)
  obtain ⟨hduring, hstill⟩ := received_of_present hjoined hpresent during (by omega)
    hstay (fun deed hdeed => hread deed (List.mem_append_left _ hdeed))
  have hrest := received_of_leaving hstill rest hleft
    (fun deed hdeed => hread deed (List.mem_append_right _ hdeed))
  have hlaw : received ticket.place opened history ++ (opened.after history).backlog ticket.place
      = Line.notice time (Line.joined ticket.name)
          :: reaching ticket ((room.doing ⟨time, .join name⟩).room.log during) := by
    have hqueue : (room.doing ⟨time, .join name⟩).room.backlog ticket.place
        = [Line.notice time (Line.joined ticket.name)] := by
      have hhang : Op.join name ≠ .hangUp ticket.place := by simp
      have hstep := @taken_append_backlog_doing room ⟨time, .join name⟩ _ hhang
      rwa [hempty, hfirst] at hstep
    rw [received_append, hbefore, List.nil_append, after_append, received_append, List.append_assoc,
      after_append]
    show received ticket.place _ during ++ (_ ++ _) = _
    rw [show room.after stay = (room.doing ⟨time, .join name⟩).room.after during from rfl, hrest,
      hduring, hqueue]
    rfl
  have hsplit : reaching ticket (room.log stay)
      = Line.notice time (Line.joined ticket.name)
          :: reaching ticket ((room.doing ⟨time, .join name⟩).room.log during) := by
    show reaching ticket (_ ++ _) = _
    rw [reaching_append, hreach]
    rfl
  refine ⟨?_, ?_, ?_⟩
  · rw [log_append, log_append]
  · rw [hlaw, ← hsplit]
    rfl
  · rw [hlaw]
    rfl

/-- Of seventeen lines in a row the first participant gets fifteen: the announcement of the second
    one is in the queue already, behind its own. -/
theorem received_append_queued_of_crowd :
    let opened := empty "12:00" .plain
    let crowd : List Deed :=
      ⟨"12:00", .join "bob"⟩ :: List.replicate 17 ⟨"12:01", .say ⟨2⟩ "" "hey"⟩
    let history := ⟨"12:00", .join "ann"⟩ :: crowd ++ [⟨"12:02", .leave ⟨1⟩⟩]
    let lines := received ⟨0⟩ opened history ++ (opened.after history).backlog ⟨0⟩
    lines.length = 16 ∧ lines.head? = some "[12:00] [system] ann joined the chat" := by
  intro opened crowd history lines
  have hlaw := received_append_queued "12:00" .plain [] crowd [⟨"12:02", .leave ⟨1⟩⟩] "12:00" "ann"
    ⟨⟨1⟩, "ann", .plain, ⟨0⟩⟩ (by decide) (by decide) (by decide) (by decide) (by decide)
  refine ⟨?_, hlaw.2.2⟩
  show (received ⟨0⟩ opened history ++ (opened.after history).backlog ⟨0⟩).length = 16
  refine (congrArg List.length hlaw.2.1).trans ?_
  rw [List.length_map]
  decide +kernel

end Room

end LineChat
