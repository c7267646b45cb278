import LineChat.Proofs.Room.Delivery

set_option autoImplicit false

/-! # The registry and its history

Three things move on when somebody joins: the last number given out, the cursor of the colours, and
the list of seats. They move together and nothing else moves them (`Aligned`), so the participant
who joins after `k` others always gets the same ticket (`nthTicket`), whoever has left by then.

An entry of the registry is such a ticket. Joining adds one at the end, because the new number is
not in the registry yet; leaving strikes the one with the number; and nothing else touches the list
(`entries_perform`). So the registry can be read off a history: it holds the tickets of those who
joined and were not sent away afterwards (`staying`). -/

namespace LineChat

namespace ColorPicker

/-- A picker that takes its colours in turn, after so many have been taken. An empty palette is not
    counted through. -/
def cycled (palette : List Color) (drawn : Nat) : ColorPicker :=
  .cycle palette (if palette.isEmpty then 0 else UInt64.ofNat drawn)

/-- The colours come round in the order of the palette. -/
theorem draw_cycled (palette : List Color) {drawn : Nat} (h : drawn < 2 ^ 64) :
    (cycled palette drawn).draw
      = (palette[drawn % palette.length]?.getD Color.plain, cycled palette (drawn + 1)) := by
  cases palette with
  | nil => simp [cycled, draw]
  | cons first rest =>
      have hindex : drawn % (first :: rest).length < (first :: rest).length :=
        Nat.mod_lt _ (Nat.succ_pos _)
      have hdrawn : (UInt64.ofNat drawn).toNat = drawn := by
        rw [UInt64.toNat_ofNat', Nat.mod_eq_of_lt h]
      have hnext : UInt64.ofNat drawn + 1 = UInt64.ofNat (drawn + 1) := (UInt64.ofNat_add _ _).symm
      show ((first :: rest).getD ((UInt64.ofNat drawn).toNat % (first :: rest).length) first,
          cycle (first :: rest) (UInt64.ofNat drawn + 1)) = _
      rw [hdrawn, hnext, List.getD_eq_getElem?_getD, List.getElem?_eq_getElem hindex]
      rfl

end ColorPicker

/-- What a member was told on joining. -/
def Member.ticket (member : Member) : Ticket :=
  ⟨member.seat.id, member.seat.name, member.seat.color, member.place⟩

namespace Room

/-! ## The entries -/

/-- The entries of the registry, without the queues. -/
def entries (room : Room) : List Ticket :=
  room.registry.map Member.ticket

/-- The entry under a number. -/
def listed? (room : Room) (id : ParticipantId) : Option Ticket :=
  room.entries.find? fun ticket => ticket.id == id

theorem length_entries (room : Room) : room.entries.length = room.online :=
  List.length_map _

theorem listed?_eq (room : Room) (id : ParticipantId) :
    room.listed? id = (room.member? id).map Member.ticket :=
  List.find?_map

/-- The lines of a participant are signed as the entry says. -/
theorem label_eq (room : Room) (id : ParticipantId) (fallback : String) :
    room.label id fallback
      = ((room.listed? id).map fun ticket => ticket.color.paint ticket.name).getD fallback := by
  rw [listed?_eq, label]
  cases room.member? id <;> rfl

/-- The line that a text becomes, written out. -/
theorem sayLine_eq (room : Room) (id : ParticipantId) (fallback text : String) :
    room.sayLine id fallback text
      = "[" ++ room.stamp ++ "] "
          ++ (match room.listed? id with
              | none => fallback
              | some ticket =>
                if ticket.color.token = "" then ticket.name
                else ticket.color.token ++ ticket.name ++ "\x1b[0m")
          ++ ": " ++ text := by
  rw [sayLine, Line.said, label_eq]
  cases room.listed? id with
  | none => rfl
  | some ticket =>
      rw [Option.map_some, Option.getD_some, Color.paint, Color.isPlain]
      simp only [String.isEmpty_iff]
      rfl

/-- Queues that are changed leave those members in the registry whose sending end stays open. -/
theorem membersFrom_mapIdx (keep : ParticipantId → Bool) (f : Place → Seat → Outbox)
    (h : ∀ place seat, (f place seat).sending = (seat.outbox.sending && keep seat.id))
    (start : Nat) (seats : List Seat) :
    membersFrom start (seats.mapIdx fun index seat =>
        { seat with outbox := f ⟨start + index⟩ seat })
      = ((membersFrom start seats).filter fun member => keep member.seat.id).map fun member =>
          ⟨member.place, { member.seat with outbox := f member.place member.seat }⟩ := by
  induction seats generalizing start with
  | nil => rfl
  | cons seat seats ih =>
      have hrest := ih (start + 1)
      simp only [Nat.add_assoc, Nat.add_comm 1] at hrest
      have hsending : (f ⟨start + 0⟩ seat).sending = (seat.outbox.sending && keep seat.id) := h _ _
      rw [List.mapIdx_cons, membersFrom, membersFrom, hrest]
      simp only [Seat.registered, hsending]
      by_cases hopen : seat.outbox.sending = true
      · cases hkeep : keep seat.id <;> simp [hopen, hkeep]
      · simp [hopen]

theorem registry_adjust (keep : ParticipantId → Bool) {f : Place → Seat → Outbox}
    (h : ∀ place seat, (f place seat).sending = (seat.outbox.sending && keep seat.id))
    (room : Room) :
    (room.adjust f).registry
      = (room.registry.filter fun member => keep member.seat.id).map fun member =>
          ⟨member.place, { member.seat with outbox := f member.place member.seat }⟩ := by
  have hmembers := membersFrom_mapIdx keep f h 0 room.seats
  simp only [Nat.zero_add] at hmembers
  exact hmembers

theorem entries_adjust (keep : ParticipantId → Bool) {f : Place → Seat → Outbox}
    (h : ∀ place seat, (f place seat).sending = (seat.outbox.sending && keep seat.id))
    (room : Room) :
    (room.adjust f).entries = room.entries.filter fun ticket => keep ticket.id := by
  rw [entries, registry_adjust keep h, List.map_map, entries, List.filter_map]
  rfl

/-- Whatever leaves the sending ends alone leaves the entries alone. -/
theorem entries_adjust_of_sending {f : Place → Seat → Outbox}
    (h : ∀ place seat, (f place seat).sending = seat.outbox.sending) (room : Room) :
    (room.adjust f).entries = room.entries := by
  rw [entries_adjust (fun _ => true) fun place seat => by rw [h, Bool.and_true]]
  exact List.filter_true _

theorem entries_mapOutbox {f : Outbox → Outbox} (h : ∀ box, (f box).sending = box.sending)
    (room : Room) (place : Place) : (room.mapOutbox place f).entries = room.entries := by
  rw [mapOutbox_eq_adjust]
  refine entries_adjust_of_sending (fun place' seat => ?_) room
  split
  · exact h seat.outbox
  · rfl

theorem entries_struck (room : Room) (id : ParticipantId) :
    (room.struck id).entries = room.entries.filter fun ticket => ticket.id ≠ id := by
  rw [struck_eq_adjust]
  refine (entries_adjust (fun other => other ≠ id) (fun _ seat => ?_) room)
  by_cases hid : seat.id = id <;> simp [hid, Outbox.closed]

theorem membersFrom_append (start : Nat) (seats seats' : List Seat) :
    membersFrom start (seats ++ seats')
      = membersFrom start seats ++ membersFrom (start + seats.length) seats' := by
  induction seats generalizing start with
  | nil => rfl
  | cons seat seats ih =>
      have hstart : start + (seat :: seats).length = start + 1 + seats.length := by
        rw [List.length_cons]
        omega
      rw [List.cons_append, membersFrom, membersFrom, ih, hstart]
      split <;> rfl

theorem entries_enrol (room : Room) (name : String) :
    (room.enrol name).1.entries
      = (room.struck room.nextId).entries ++ [(room.enrol name).2] := by
  have hlength : (room.struck room.nextId).seats.length = room.seats.length := List.length_map _
  rw [entries, registry, enrol_seats, membersFrom_append, hlength, List.map_append, Nat.zero_add]
  rfl

/-- Who comes into the registry by an operation. -/
def newcomers (room : Room) : Op → List Ticket
  | .join name => [(room.enrol name).2]
  | .leave _ | .say .. | .receive _ | .drain _ | .hangUp _ => []

/-- What an operation does to the registry: an entry is struck if the operation is about its number,
    and whoever joins comes last. -/
theorem entries_perform (room : Room) (op : Op) :
    (room.perform op).room.entries
      = (room.entries.filter fun ticket => room.strikes? op ≠ some ticket.id)
          ++ room.newcomers op := by
  have hall : (room.entries.filter fun _ => decide True) ++ [] = room.entries := by simp
  cases op with
  | join name =>
      show (room.join name).room.entries = _ ++ [(room.enrol name).2]
      rw [join_room, entries_adjust_of_sending fun _ => afterRound_sending _ _, entries_enrol,
        entries_struck]
      simp [strikes?, eq_comm]
  | leave id =>
      show (room.leave id).room.entries = _ ++ []
      cases hmember : room.member? id with
      | none =>
          have hnobody : ∀ ticket ∈ room.entries, room.strikes? (.leave id) ≠ some ticket.id := by
            intro ticket hticket hid
            have hnone : room.listed? id = none := by rw [listed?_eq, hmember, Option.map_none]
            exact List.find?_eq_none.1 hnone ticket hticket (by simp [Option.some.inj hid])
          rw [leave_of_not_member hmember, List.append_nil, List.filter_eq_self.2]
          simpa using hnobody
      | some member =>
          rw [leave_room hmember, entries_adjust_of_sending fun _ => afterRound_sending _ _,
            entries_struck]
          simp [strikes?, eq_comm]
  | say id fallback text =>
      show (room.say id fallback text).room.entries = _
      rw [say_room, entries_adjust_of_sending fun _ => afterRound_sending _ _]
      exact hall.symm
  | receive place =>
      show (room.receive place).2.entries = _
      refine Eq.trans ?_ hall.symm
      rw [receive]
      split
      · rfl
      · exact entries_mapOutbox outbox_receive_sending room place
  | drain place =>
      show (room.drain place).2.entries = _
      refine Eq.trans ?_ hall.symm
      rw [drain]
      split
      · rfl
      · exact entries_mapOutbox (f := Outbox.emptied) (fun _ => rfl) room place
  | hangUp place =>
      have hsame := entries_mapOutbox (f := Outbox.dropped) (fun _ => rfl) room place
      exact hsame.trans hall.symm

/-- An operation about one number leaves the entries under the others alone. -/
theorem listed?_perform {room : Room} {op : Op} {id : ParticipantId}
    (h : room.strikes? op ≠ some id) : (room.perform op).room.listed? id = room.listed? id := by
  have hnew : (room.newcomers op).find? (fun ticket => ticket.id == id) = none := by
    cases op with
    | join name =>
        have hid : (room.enrol name).2.id ≠ id := fun hid => h (congrArg some hid)
        simp [newcomers, hid]
    | leave _ | say _ _ _ | receive _ | drain _ | hangUp _ => rfl
  rw [listed?, entries_perform, List.find?_append, hnew, Option.or_none, List.find?_filter, listed?]
  congr 1
  funext ticket
  by_cases hid : ticket.id = id <;> simp [hid, h]

/-! ## Tickets -/

/-- The ticket of the participant who joins after so many others, and claims a name or none. -/
def nthTicket (palette : List Color) (k : Nat) (claimed : String) : Ticket :=
  ⟨nth k, if claimed.isEmpty then "user-" ++ Decimal.padded 3 (k + 1) else claimed,
    palette[k % palette.length]?.getD Color.plain, ⟨k⟩⟩

/-- As long as numbers do not start over, they are counted from one. -/
theorem seq_nth {k : Nat} (hk : k + 1 < 2 ^ 64) : (nth k).seq.toNat = k + 1 := by
  rw [nth, UInt64.toNat_ofNat', Nat.mod_eq_of_lt hk]

/-- The tickets that an operation gives out, after so many. -/
def Op.tickets (palette : List Color) (k : Nat) : Op → List Ticket
  | .join name => [nthTicket palette k name]
  | .leave _ | .say .. | .receive _ | .drain _ | .hangUp _ => []

/-- A room that takes its colours in turn and in which so many have joined. -/
structure Aligned (palette : List Color) (room : Room) (k : Nat) : Prop where
  numbered : room.Numbered k
  picker : room.picker = .cycled palette k

theorem aligned_empty (stamp : String) (palette : List Color) :
    (empty stamp (.cycle palette 0)).Aligned palette 0 := by
  refine ⟨numbered_empty stamp _, ?_⟩
  rw [ColorPicker.cycled]
  cases palette <;> rfl

/-- The room with the participant who comes in by an operation, before a line goes round. -/
def admitting (room : Room) : Op → Room
  | .join name => (room.enrol name).1
  | .leave _ | .say .. | .receive _ | .drain _ | .hangUp _ => room

/-- Apart from letting somebody in, operations change queues. -/
theorem exists_perform_eq_adjust (room : Room) (op : Op) :
    ∃ f, (room.perform op).room = (room.admitting op).adjust f := by
  cases op with
  | join name => exact ⟨_, room.join_room name⟩
  | leave id =>
      show ∃ f, (room.leave id).room = room.adjust f
      cases hmember : room.member? id with
      | none => exact ⟨_, by rw [leave_of_not_member hmember, adjust_self]⟩
      | some member => exact ⟨_, by rw [leave_room hmember, struck_eq_adjust, adjust_adjust]⟩
  | say id fallback text => exact ⟨_, room.say_room id fallback text⟩
  | receive place =>
      show ∃ f, (room.receive place).2 = room.adjust f
      rw [receive]
      split
      · exact ⟨_, room.adjust_self.symm⟩
      · exact ⟨_, room.mapOutbox_eq_adjust place fun box => box.receive.2⟩
  | drain place =>
      show ∃ f, (room.drain place).2 = room.adjust f
      rw [drain]
      split
      · exact ⟨_, room.adjust_self.symm⟩
      · exact ⟨_, room.mapOutbox_eq_adjust place Outbox.emptied⟩
  | hangUp place => exact ⟨_, room.mapOutbox_eq_adjust place _⟩

/-- Only joining draws a colour. -/
theorem picker_perform (room : Room) (op : Op) :
    (room.perform op).room.picker = if op.joins = 0 then room.picker else room.picker.draw.2 := by
  obtain ⟨f, hroom⟩ := room.exists_perform_eq_adjust op
  rw [hroom]
  cases op <;> rfl

namespace Aligned

variable {palette : List Color} {room : Room} {k : Nat}

theorem stamped (h : room.Aligned palette k) (time : String) :
    (room.stamped time).Aligned palette k :=
  ⟨h.numbered.stamped time, h.picker⟩

theorem doing (h : room.Aligned palette k) (hk : k < 2 ^ 64) (deed : Deed) :
    (room.doing deed).room.Aligned palette (k + deed.op.joins) := by
  refine ⟨h.numbered.doing deed, ?_⟩
  rw [Room.doing, picker_perform, (h.stamped deed.stamp).picker, ColorPicker.draw_cycled palette hk]
  cases deed.op with
  | join name => rfl
  | leave _ | say _ _ _ | receive _ | drain _ | hangUp _ => rfl

theorem after (h : room.Aligned palette k) (deeds : List Deed)
    (hjoins : k + joins deeds < 2 ^ 64) :
    (room.after deeds).Aligned palette (k + joins deeds) := by
  induction deeds generalizing room k with
  | nil => exact h
  | cons deed deeds ih =>
      rw [joins_cons, ← Nat.add_assoc] at hjoins ⊢
      exact ih (h.doing (by omega) deed) hjoins

/-- Whoever joins gets the ticket that goes with how many joined before. -/
theorem enrol_ticket (h : room.Aligned palette k) (hk : k + 1 < 2 ^ 64) (name : String) :
    (room.enrol name).2 = nthTicket palette k name := by
  have hid : (⟨room.lastSeq + 1⟩ : ParticipantId) = nth k := h.numbered.nextId
  have hcolor : room.picker.draw.1 = palette[k % palette.length]?.getD Color.plain := by
    rw [h.picker, ColorPicker.draw_cycled palette (by omega)]
  show Ticket.mk ⟨room.lastSeq + 1⟩ (if name.isEmpty then ParticipantId.display _ else name)
    room.picker.draw.1 ⟨room.seats.length⟩ = _
  rw [hid, hcolor, h.numbered.length, ParticipantId.display, seq_nth hk]
  rfl

/-- The number that is given out next is not in the registry. -/
theorem nextId_ne_id (h : room.Aligned palette k) (hk : k < 2 ^ 64) :
    ∀ ticket ∈ room.entries, room.nextId ≠ ticket.id := by
  intro ticket hticket
  obtain ⟨member, hmember, rfl⟩ := List.mem_map.1 hticket
  exact (h.numbered.ne_nextId hk ((room.mem_registry_iff member).1 hmember).1).symm

/-- So joining replaces no entry: it adds one, and only leaving takes one out. -/
theorem entries_doing (h : room.Aligned palette k) (deed : Deed)
    (hk : k + deed.op.joins < 2 ^ 64) :
    (room.doing deed).room.entries
      = (room.entries.filter fun ticket => deed.op ≠ .leave ticket.id)
          ++ deed.op.tickets palette k := by
  obtain ⟨time, op⟩ := deed
  have hstamped : (room.stamped time).Aligned palette k := h.stamped time
  refine ((room.stamped time).entries_perform op).trans ?_
  cases op with
  | join name =>
      have hticket : (room.stamped time).newcomers (.join name) = [nthTicket palette k name] :=
        congrArg (fun ticket => [ticket]) (hstamped.enrol_ticket hk name)
      have hkept := hstamped.nextId_ne_id (Nat.lt_of_succ_lt hk)
      rw [hticket, List.filter_eq_self.2 (by simpa [strikes?] using hkept)]
      simp [Op.tickets, entries, registry, Room.stamped]
  | leave _ | say _ _ _ | receive _ | drain _ | hangUp _ =>
      simp [strikes?, newcomers, Op.tickets, entries, registry, Room.stamped]

theorem entries_join (h : room.Aligned palette k) (hk : k + 1 < 2 ^ 64) (time name : String) :
    (room.doing ⟨time, .join name⟩).room.entries
      = room.entries ++ [nthTicket palette k name] := by
  have hdoing := h.entries_doing ⟨time, .join name⟩ hk
  simpa [Op.tickets] using hdoing

/-- Nobody is in the room under the number that is given out next. -/
theorem member?_nth (h : room.Aligned palette k) (hk : k < 2 ^ 64) :
    room.member? (nth k) = none := by
  rw [← h.numbered.nextId]
  refine h.numbered.member?_eq_none (Nat.le_of_lt hk) ?_
  rw [h.numbered.place_nextId hk, seat?_nextPlace]

/-- No number is in the registry twice. -/
theorem nodup_ids (h : room.Aligned palette k) (hk : k ≤ 2 ^ 64) :
    (room.entries.map Ticket.id).Nodup := by
  have hplaces : (room.entries.map Ticket.id).map ParticipantId.place
      = room.registry.map Member.place := by
    rw [entries, List.map_map, List.map_map]
    refine List.map_congr_left fun member hmember => ?_
    exact h.numbered.place_eq hk ((room.mem_registry_iff member).1 hmember).1
  exact List.Nodup.of_map _ (hplaces ▸ room.nodup_places)

end Aligned

/-! ## Histories -/

/-- Whether a number is sent away in a history. -/
def sentAway (id : ParticipantId) (deeds : List Deed) : Bool :=
  deeds.any fun deed => deed.op = .leave id

/-- The tickets of those who join in a history, after so many others, and are not sent away
    afterwards. -/
def staying (palette : List Color) : Nat → List Deed → List Ticket
  | _, [] => []
  | k, ⟨_, .join name⟩ :: deeds =>
    if sentAway (nth k) deeds then staying palette (k + 1) deeds
    else nthTicket palette k name :: staying palette (k + 1) deeds
  | k, _ :: deeds => staying palette k deeds

theorem staying_cons (palette : List Color) (k : Nat) (deed : Deed) (deeds : List Deed) :
    staying palette k (deed :: deeds)
      = ((deed.op.tickets palette k).filter fun ticket => !sentAway ticket.id deeds)
          ++ staying palette (k + deed.op.joins) deeds := by
  obtain ⟨time, op⟩ := deed
  cases op with
  | join name =>
      rw [staying, Op.tickets, List.filter_cons]
      cases hsent : sentAway (nth k) deeds <;> simp [nthTicket, Op.joins, hsent]
  | leave _ | say _ _ _ | receive _ | drain _ | hangUp _ => rfl

/-- A history leaves in the registry who was there and is not sent away, and who comes and stays. -/
theorem Aligned.entries_after {palette : List Color} {room : Room} {k : Nat}
    (h : room.Aligned palette k) (deeds : List Deed) (hjoins : k + joins deeds < 2 ^ 64) :
    (room.after deeds).entries
      = (room.entries.filter fun ticket => !sentAway ticket.id deeds)
          ++ staying palette k deeds := by
  induction deeds generalizing room k with
  | nil => simp [Room.after, sentAway, staying]
  | cons deed deeds ih =>
      rw [joins_cons, ← Nat.add_assoc] at hjoins
      have hrest := ih (h.doing (by omega) deed) hjoins
      rw [h.entries_doing deed (by omega), List.filter_append, List.filter_filter] at hrest
      rw [Room.after, hrest, staying_cons, List.append_assoc]
      congr 1
      refine List.filter_congr fun ticket _ => ?_
      by_cases hleave : deed.op = .leave ticket.id <;> simp [sentAway, hleave]

/-- The registry of a room that takes its colours in turn is what its history makes of it.

    It holds the tickets of those who stay, each number once. Whoever joins gets the ticket that
    goes with how many joined before, under a number that is not in the registry, and so comes in
    behind everybody who is there. What a participant says is signed as the ticket says while it is
    in the registry, and else by the name that is given along. And an operation changes no entry but
    under the number that it is about. -/
theorem entries_of_history (stamp : String) (palette : List Color) (deeds : List Deed)
    (hjoins : joins deeds < 2 ^ 64) :
    let opened := empty stamp (.cycle palette 0)
    (opened.after deeds).entries = staying palette 0 deeds
      ∧ ((staying palette 0 deeds).map Ticket.id).Nodup
      ∧ (opened.after deeds).online = (staying palette 0 deeds).length
      ∧ (∀ before time name rest, deeds = before ++ ⟨time, .join name⟩ :: rest →
          let room := opened.after before
          let ticket := nthTicket palette (joins before) name
          (room.doing ⟨time, .join name⟩).answer = .joined ticket
            ∧ ticket.id.seq.toNat = joins before + 1
            ∧ room.member? ticket.id = none
            ∧ (room.doing ⟨time, .join name⟩).room.entries = room.entries ++ [ticket])
      ∧ (∀ before time id fallback text rest,
          deeds = before ++ ⟨time, .say id fallback text⟩ :: rest →
          let label := match (staying palette 0 before).find? fun ticket => ticket.id == id with
            | none => fallback
            | some ticket =>
              if ticket.color.token = "" then ticket.name
              else ticket.color.token ++ ticket.name ++ "\x1b[0m"
          ((opened.after before).doing ⟨time, .say id fallback text⟩).answer
            = .said ("[" ++ time ++ "] " ++ label ++ ": " ++ text))
      ∧ (∀ before deed rest id, deeds = before ++ deed :: rest →
          (opened.after before).strikes? deed.op ≠ some id →
          ((opened.after before).doing deed).room.listed? id = (opened.after before).listed? id) := by
  intro opened
  have hopened : opened.Aligned palette 0 := aligned_empty stamp palette
  -- every stretch of the history from its beginning is a history of its own
  have haligned : ∀ before rest, deeds = before ++ rest →
      (opened.after before).Aligned palette (joins before)
        ∧ joins before + joins rest < 2 ^ 64
        ∧ (opened.after before).entries = staying palette 0 before := by
    rintro before rest rfl
    rw [joins_append] at hjoins
    have hbefore : 0 + joins before < 2 ^ 64 := by omega
    have hafter := hopened.after before hbefore
    rw [Nat.zero_add] at hafter
    exact ⟨hafter, hjoins, hopened.entries_after before hbefore⟩
  obtain ⟨hafter, -, hentries⟩ := haligned deeds [] (List.append_nil _).symm
  refine ⟨hentries, ?_, ?_, ?_, ?_, ?_⟩
  · rw [← hentries]
    exact hafter.nodup_ids (Nat.le_of_lt hjoins)
  · rw [← hentries, length_entries]
  · intro before time name rest hdeeds room ticket
    obtain ⟨hbefore, hbound, -⟩ := haligned before _ hdeeds
    have hk : joins before + 1 < 2 ^ 64 := by
      rw [joins_cons] at hbound
      exact Nat.lt_of_le_of_lt (Nat.add_le_add_left (Nat.le_add_right _ _) _) hbound
    have hgiven := (hbefore.stamped time).enrol_ticket hk name
    exact ⟨congrArg Answer.joined hgiven, seq_nth hk, hbefore.member?_nth (Nat.lt_of_succ_lt hk),
      hbefore.entries_join hk time name⟩
  · intro before time id fallback text rest hdeeds label
    obtain ⟨-, -, hentries⟩ := haligned before _ hdeeds
    have hline := ((opened.after before).stamped time).sayLine_eq id fallback text
    rw [listed?, show ((opened.after before).stamped time).entries = staying palette 0 before
      from hentries] at hline
    exact congrArg Answer.said hline
  · intro before deed rest id _ hstrikes
    exact listed?_perform hstrikes

/-- A number that is sent away before it is given out is given out all the same, and the words of
    somebody who has gone are signed by the name that is given along. -/
theorem entries_of_history_of_early_leave :
    let palette : List Color := [⟨"\x1b[31m"⟩, .plain]
    let opened := empty "08:59" (.cycle palette 0)
    let deeds : List Deed :=
      [⟨"09:00", .join ""⟩, ⟨"09:01", .join "bob"⟩, ⟨"09:02", .leave ⟨1⟩⟩, ⟨"09:03", .leave ⟨3⟩⟩,
        ⟨"09:04", .join ""⟩]
    let parting : Deed := ⟨"09:05", .say ⟨1⟩ "gone" "bye"⟩
    let greeting : Deed := ⟨"09:06", .say ⟨3⟩ "gone" "hi"⟩
    joins (deeds ++ [parting, greeting]) < 2 ^ 64
      ∧ (opened.after (deeds ++ [parting, greeting])).entries
          = [⟨⟨2⟩, "bob", .plain, ⟨1⟩⟩, ⟨⟨3⟩, "user-003", ⟨"\x1b[31m"⟩, ⟨2⟩⟩]
      ∧ ((opened.after deeds).doing parting).answer = .said "[09:05] gone: bye"
      ∧ ((opened.after (deeds ++ [parting])).doing greeting).answer
          = .said "[09:06] \x1b[31muser-003\x1b[0m: hi" := by
  intro palette opened deeds parting greeting
  have hjoins : joins (deeds ++ [parting, greeting]) < 2 ^ 64 := by decide
  obtain ⟨hentries, -, -, -, hsaid, -⟩ :=
    entries_of_history "08:59" palette (deeds ++ [parting, greeting]) hjoins
  refine ⟨hjoins, hentries.trans (by decide +kernel), ?_, ?_⟩
  · refine (hsaid deeds "09:05" ⟨1⟩ "gone" "bye" [greeting] rfl).trans ?_
    decide +kernel
  · refine (hsaid (deeds ++ [parting]) "09:06" ⟨3⟩ "gone" "hi" [] rfl).trans ?_
    decide +kernel

end Room

end LineChat
