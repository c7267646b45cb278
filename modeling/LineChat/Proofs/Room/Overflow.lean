import LineChat.Proofs.Room.Delivery

set_option autoImplicit false

/-! # What a queue keeps

While nobody reads a queue it keeps the oldest lines, and as many of them as it can hold. The others
are lost, in whatever way the room came to hand them out (`backlog_after`). -/

namespace LineChat.Room

/-- The lines of a log that are meant for a participant who is present, whether or not the queue has a
    place for them. -/
def addressed (ticket : Ticket) (issues : List Issue) : List String :=
  (issues.filter fun issue => issue.source? ≠ some ticket.id).map Issue.line

@[simp] theorem addressed_append (ticket : Ticket) (issues issues' : List Issue) :
    addressed ticket (issues ++ issues') = addressed ticket issues ++ addressed ticket issues' := by
  simp [addressed]

section
variable {room : Room} {ticket : Ticket} {deed : Deed} {seat : Seat}

theorem seat?_doing (hseat : room.seat? ticket.place = some seat) :
    ∃ seat', (room.doing deed).room.seat? ticket.place = some seat'
      ∧ Keeps (room.stamped deed.stamp) ticket.place deed.op seat seat' := by
  have hstamped : (room.stamped deed.stamp).seat? ticket.place = some seat := hseat
  exact seat?_perform deed.op hstamped

/-- Nobody comes back: whoever is present after an operation was present before it. -/
theorem present_of_doing (hseat : room.seat? ticket.place = some seat)
    (h : (room.doing deed).room.Present ticket) :
    room.Present ticket ∧ room.strikes? deed.op ≠ some ticket.id
      ∧ deed.op ≠ .hangUp ticket.place := by
  obtain ⟨seat', hseat', hkeeps⟩ := seat?_doing hseat
  obtain ⟨other, hother, hid, hreg, hrec⟩ := h
  obtain rfl := Option.some.inj (hseat'.symm.trans hother)
  obtain ⟨hreg, hstrikes⟩ := hkeeps.registered.1 hreg
  obtain ⟨hrec, hhang⟩ := hkeeps.receiving.1 hrec
  have hthis : seat.id = ticket.id := hkeeps.id.symm.trans hid
  exact ⟨⟨seat, hseat, hthis, hreg, hrec⟩, hthis ▸ hstrikes, hhang⟩

theorem issue?_queued {issue : Issue} (h : room.issue? deed = some issue) (place : Place) :
    issue.queued place = (room.backlog place).length := by
  obtain ⟨stamp, op⟩ := deed
  cases op with
  | join name =>
      obtain rfl := Option.some.inj h
      rfl
  | say id fallback text =>
      obtain rfl := Option.some.inj h
      rfl
  | leave id =>
      obtain ⟨member, -, rfl⟩ := Option.map_eq_some_iff.1 h
      rfl
  | receive _ | drain _ | hangUp _ => exact nomatch h

/-- A line that finds a full queue is cut off behind it. -/
theorem backlog_append_reaching (hle : (room.backlog ticket.place).length ≤ Outbox.capacity) :
    room.backlog ticket.place ++ reaching ticket (room.issue? deed).toList
      = (room.backlog ticket.place ++ addressed ticket (room.issue? deed).toList).take
          Outbox.capacity := by
  cases hissue : room.issue? deed with
  | none =>
      show _ ++ [] = (_ ++ []).take _
      rw [List.append_nil, List.take_of_length_le hle]
  | some issue =>
      have hqueued := issue?_queued hissue ticket.place
      by_cases hsource : issue.source? = some ticket.id
      · simp [reaching, addressed, Issue.Reaches, hsource, List.take_of_length_le hle]
      · by_cases hroom : (room.backlog ticket.place).length < Outbox.capacity
        · have hfits : (room.backlog ticket.place ++ [issue.line]).length ≤ Outbox.capacity := by
            rw [List.length_append]
            exact hroom
          simp [reaching, addressed, Issue.Reaches, hsource, hqueued, hroom,
            List.take_of_length_le hfits]
        · simp [reaching, addressed, Issue.Reaches, hsource, hqueued, hroom,
            List.take_append_of_le_length (Nat.le_of_not_lt hroom), List.take_of_length_le hle]

theorem backlog_doing (hseat : room.seat? ticket.place = some seat)
    (hpresent : (room.doing deed).room.Present ticket)
    (hreads : deed.op.reads? ≠ some ticket.place)
    (hle : (room.backlog ticket.place).length ≤ Outbox.capacity) :
    (room.doing deed).room.backlog ticket.place
      = (room.backlog ticket.place ++ addressed ticket (room.issue? deed).toList).take
          Outbox.capacity := by
  obtain ⟨hbefore, hstrikes, hhang⟩ := present_of_doing hseat hpresent
  have hlaw := taken_append_backlog_doing room hhang
  have htaken : taken ticket.place deed.op (room.doing deed).answer = [] :=
    taken_of_reads?_ne hreads (room.stamped deed.stamp)
  rw [htaken, List.nil_append, hbefore.deliveredTo_doing hstrikes] at hlaw
  rw [hlaw, backlog_append_reaching hle]

end

theorem take_take_append {α : Type} (n : Nat) (xs ys : List α) :
    (xs.take n ++ ys).take n = (xs ++ ys).take n := by
  have hlength : n - min n xs.length = n - xs.length := by omega
  rw [List.take_append, List.take_append, List.take_take, Nat.min_self, List.length_take, hlength]

theorem present_of_after {room : Room} {ticket : Ticket} {seat : Seat}
    (hseat : room.seat? ticket.place = some seat) {deeds : List Deed}
    (hpresent : (room.after deeds).Present ticket) : room.Present ticket := by
  induction deeds generalizing room seat with
  | nil => exact hpresent
  | cons deed deeds ih =>
      obtain ⟨seat', hseat', -⟩ := @seat?_doing _ _ deed _ hseat
      exact (present_of_doing hseat (ih hseat' hpresent)).1

/-- Of all that is meant for somebody who is present, a queue that nobody reads keeps what comes
    first, and no more than it can hold. -/
theorem backlog_after {room : Room} {ticket : Ticket} {seat : Seat}
    (hseat : room.seat? ticket.place = some seat) {deeds : List Deed}
    (hpresent : (room.after deeds).Present ticket)
    (hreads : ∀ deed ∈ deeds, deed.op.reads? ≠ some ticket.place)
    (hle : (room.backlog ticket.place).length ≤ Outbox.capacity) :
    (room.after deeds).backlog ticket.place
      = (room.backlog ticket.place ++ addressed ticket (room.log deeds)).take Outbox.capacity := by
  induction deeds generalizing room seat with
  | nil =>
      show _ = (_ ++ []).take _
      rw [List.append_nil, List.take_of_length_le hle]
      rfl
  | cons deed deeds ih =>
      obtain ⟨seat', hseat', -⟩ := @seat?_doing _ _ deed _ hseat
      have hthis := backlog_doing hseat (present_of_after hseat' hpresent)
        (hreads deed List.mem_cons_self) hle
      have hle' : ((room.doing deed).room.backlog ticket.place).length ≤ Outbox.capacity := by
        rw [hthis]
        exact List.length_take_le _ _
      have hrest := ih hseat' hpresent (fun d hd => hreads d (List.mem_cons_of_mem _ hd)) hle'
      calc ((room.doing deed).room.after deeds).backlog ticket.place
          = ((room.backlog ticket.place ++ addressed ticket (room.issue? deed).toList).take
                Outbox.capacity
              ++ addressed ticket ((room.doing deed).room.log deeds)).take Outbox.capacity := by
            rw [hrest, hthis]
        _ = (room.backlog ticket.place ++ addressed ticket (room.log (deed :: deeds))).take
              Outbox.capacity := by
            rw [take_take_append, List.append_assoc, ← addressed_append]
            rfl

end LineChat.Room
