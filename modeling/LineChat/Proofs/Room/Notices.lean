import LineChat.Proofs.Room.Numbers

set_option autoImplicit false

/-! # What is announced, and to whom

Whoever comes or goes is announced by name, and the line about it is handed out there and then, to
all who are in the room (`Proclaimed`). The name is that of the seat, whoever it was that made the
participant go (`Named`). -/

namespace LineChat

namespace Room

/-! ## Announcements on record -/

/-- Whose coming or going this is, and the name that it is announced by. -/
def Event.named? : Event → Option (ParticipantId × String)
  | .joined _ ticket _ => some (ticket.id, ticket.name)
  | .left id name _ => some (id, name)
  | .alreadyGone _ | .said .. | .delivered .. | .refused .. => none

/-- What is announced, and how many are in the room then. -/
def Event.notice? : Event → Option (String × Nat)
  | .joined _ ticket online => some (Line.joined ticket.name, online)
  | .left _ name online => some (Line.left name, online)
  | .alreadyGone _ | .said .. | .delivered .. | .refused .. => none

/-- What is announced has been handed out directly, to as many as were in the room. -/
def Proclaimed (chronicle : List Event) : Prop :=
  ∀ before event after text online, chronicle = before ++ event :: after →
    event.notice? = some (text, online) →
    ∃ stamp order, order.length = online ∧ deliveries order none (Line.notice stamp text) <+: after

/-- An announcement is on record with what became of it: the line was handed out to as many as were
    in the room. -/
def Proclaims (chronicle : List Event) (event : Nat → Event) (text : String) : Prop :=
  ∃ before online stamp order after, order.length = online
    ∧ chronicle = before ++ event online :: deliveries order none (Line.notice stamp text) ++ after

theorem Proclaimed.proclaims {chronicle : List Event} (h : Proclaimed chronicle)
    {event : Nat → Event} {online : Nat} {text : String} (hmem : event online ∈ chronicle)
    (htext : (event online).notice? = some (text, online)) :
    Proclaims chronicle event text := by
  obtain ⟨before, after, hsplit⟩ := List.append_of_mem hmem
  obtain ⟨stamp, order, hlength, later, hlater⟩ := h before _ after text online hsplit htext
  refine ⟨before, online, stamp, order, later, hlength, ?_⟩
  rw [hsplit, ← hlater, List.append_assoc, List.cons_append]

theorem Proclaimed.append {chronicle news : List Event} (h : Proclaimed chronicle)
    (hnews : Proclaimed news) : Proclaimed (chronicle ++ news) := by
  intro before event after text online hsplit htext
  rcases List.append_eq_append_iff.1 hsplit with ⟨between, -, hlast⟩ | ⟨rest, hfirst, hlast⟩
  · exact hnews between event after text online hlast htext
  · cases rest with
    | nil => exact hnews [] event after text online hlast.symm htext
    | cons first rest =>
        obtain ⟨rfl, rfl⟩ := List.cons.inj hlast
        obtain ⟨stamp, order, hlength, hround⟩ := h before event rest text online hfirst htext
        exact ⟨stamp, order, hlength, hround.trans (List.prefix_append _ _)⟩

/-- Nothing is announced by handing out a line. -/
theorem proclaimed_round {event : Event} {order : List Member} {source? : Option ParticipantId}
    {line : String}
    (h : ∀ text online, event.notice? = some (text, online) →
      ∃ stamp, order.length = online ∧ source? = none ∧ line = Line.notice stamp text) :
    Proclaimed (event :: deliveries order source? line) := by
  intro before event' after text online hsplit htext
  cases before with
  | nil =>
      obtain ⟨rfl, rfl⟩ := List.cons.inj hsplit
      obtain ⟨stamp, hlength, rfl, rfl⟩ := h text online htext
      exact ⟨stamp, order, hlength, List.prefix_rfl⟩
  | cons first before =>
      have hnone := @filterMap_deliveries _ Event.notice? (fun _ _ => rfl) (fun _ _ => rfl) order
        source? line
      have hlater : deliveries order source? line = before ++ event' :: after :=
        (List.cons.inj hsplit).2
      rw [hlater, List.filterMap_append, List.filterMap_cons, htext] at hnone
      exact absurd (List.append_eq_nil_iff.1 hnone).2 (List.cons_ne_nil _ _)

theorem proclaimed_perform (room : Room) (op : Op) : Proclaimed (room.perform op).events := by
  cases op with
  | join name =>
      show Proclaimed (room.join name).events
      rw [join_events]
      refine proclaimed_round ?_
      rintro text online htext
      obtain ⟨rfl, rfl⟩ := Prod.mk.inj (Option.some.inj htext)
      exact ⟨room.stamp, rfl, rfl, rfl⟩
  | leave id =>
      show Proclaimed (room.leave id).events
      cases hmember : room.member? id with
      | none =>
          rw [leave_of_not_member hmember]
          exact @proclaimed_round (.alreadyGone id) [] none "" nofun
      | some member =>
          rw [leave_of_member hmember]
          refine proclaimed_round ?_
          rintro text online htext
          obtain ⟨rfl, rfl⟩ := Prod.mk.inj (Option.some.inj htext)
          exact ⟨room.stamp, rfl, rfl, rfl⟩
  | say id fallback text =>
      show Proclaimed (room.say id fallback text).events
      rw [say_events]
      exact proclaimed_round nofun
  | receive _ | drain _ | hangUp _ =>
      intro before event after text online hsplit
      simp [perform, performIn] at hsplit

/-! ## Names -/

/-- The names and numbers that announcements have been made with. -/
def names (chronicle : List Event) : List (ParticipantId × String) :=
  chronicle.filterMap Event.named?

theorem names_append (chronicle news : List Event) :
    names (chronicle ++ news) = names chronicle ++ names news :=
  List.filterMap_append

theorem names_deliveries (order : List Member) (source? : Option ParticipantId) (line : String) :
    names (deliveries order source? line) = [] :=
  filterMap_deliveries (fun _ _ => rfl) (fun _ _ => rfl) order source? line

/-- Whoever has a seat is announced by the name of the seat. -/
def Named (room : Room) (chronicle : List Event) : Prop :=
  ∀ place seat, room.seat? place = some seat →
    ∀ name, (seat.id, name) ∈ names chronicle → name = seat.name

/-- A notice of leaving has a name. -/
theorem exists_left_of_leaveNotices {chronicle : List Event} {id : ParticipantId}
    (h : leaveNotices id chronicle ≠ 0) :
    ∃ name online, .left id name online ∈ chronicle ∧ (id, name) ∈ names chronicle := by
  have hmem := List.count_pos_iff.1 (Nat.pos_of_ne_zero h)
  obtain ⟨event, hevent, hleft⟩ := List.mem_filterMap.1 hmem
  cases event with
  | left this name online =>
      obtain rfl := Option.some.inj hleft
      exact ⟨name, online, hevent, List.mem_filterMap.2 ⟨_, hevent, rfl⟩⟩
  | joined | alreadyGone | said | delivered | refused => cases hleft

/-- Without a notice there is no name. -/
theorem notMem_names {chronicle : List Event} {id : ParticipantId}
    (hjoins : joinNotices id chronicle = 0) (hleaves : leaveNotices id chronicle = 0)
    (name : String) : (id, name) ∉ names chronicle := by
  intro hmem
  obtain ⟨event, hevent, hnamed⟩ := List.mem_filterMap.1 hmem
  cases event with
  | joined claimed ticket online =>
      obtain ⟨rfl, -⟩ := Prod.mk.inj (Option.some.inj hnamed)
      exact List.count_eq_zero.1 hjoins (List.mem_filterMap.2 ⟨_, hevent, rfl⟩)
  | left other name' online =>
      obtain ⟨rfl, -⟩ := Prod.mk.inj (Option.some.inj hnamed)
      exact List.count_eq_zero.1 hleaves (List.mem_filterMap.2 ⟨_, hevent, rfl⟩)
  | alreadyGone | said | delivered | refused => cases hnamed

/-- The name that an operation makes an announcement with: in joining the new one, and in leaving
    that of the seat. -/
def namesBy (room : Room) : Op → List (ParticipantId × String)
  | .join name => [(room.nextId, (room.enrol name).2.name)]
  | .leave id => (room.member? id).toList.map fun member => (id, member.seat.name)
  | .say .. | .receive _ | .drain _ | .hangUp _ => []

theorem names_perform (room : Room) (op : Op) :
    names (room.perform op).events = room.namesBy op := by
  cases op with
  | join name =>
      show names (room.join name).events = _
      rw [join_events, names, List.filterMap_cons]
      exact congrArg _ (names_deliveries _ _ _)
  | leave id =>
      show names (room.leave id).events = _
      rw [namesBy]
      cases hmember : room.member? id with
      | none => rw [leave_of_not_member hmember]; rfl
      | some member =>
          rw [leave_of_member hmember, names, List.filterMap_cons]
          exact congrArg _ (names_deliveries _ _ _)
  | say id fallback text =>
      show names (room.say id fallback text).events = _
      rw [say_events, names, List.filterMap_cons]
      exact names_deliveries _ _ _
  | receive _ | drain _ | hangUp _ => rfl

theorem Named.perform {room : Room} {chronicle : List Event} (h : room.Named chronicle)
    {joins : Nat} (hnumbered : room.Numbered joins) (hjoins : joins < 2 ^ 64)
    (hannounced : ∀ id, room.Announced chronicle id) (op : Op) :
    (room.perform op).room.Named (chronicle ++ (room.perform op).events) := by
  intro place seat' hseat' name hname
  rw [names_append, names_perform, List.mem_append] at hname
  cases hseat : room.seat? place with
  | some seat =>
      -- whoever leaves under the number has this seat, and nobody joins under it
      obtain ⟨this, hthis, hkeeps⟩ := seat?_perform op hseat
      obtain rfl := Option.some.inj (hthis.symm.trans hseat')
      rw [hkeeps.id] at hname
      rw [hkeeps.name]
      refine hname.elim (h place seat hseat name) fun hnew => ?_
      cases op with
      | join claimed =>
          have hid := (Prod.mk.inj (List.mem_singleton.1 hnew)).1
          exact absurd hid (hnumbered.ne_nextId hjoins hseat)
      | leave other =>
          obtain ⟨member, hmember, heq⟩ := List.mem_map.1 hnew
          obtain ⟨rfl, rfl⟩ := Prod.mk.inj heq
          obtain ⟨hwho, -, hid⟩ := of_member?_eq_some (Option.mem_toList.1 hmember)
          have hplace := hnumbered.place_eq (Nat.le_of_lt hjoins) hwho
          rw [hid, hnumbered.place_eq (Nat.le_of_lt hjoins) hseat] at hplace
          rw [← hplace, hseat] at hwho
          rw [Option.some.inj hwho]
      | say _ _ _ | receive _ | drain _ | hangUp _ => exact absurd hnew List.not_mem_nil
  | none =>
      -- the seat is new, and so is its number
      have hnext := hnumbered.place_nextId hjoins
      have hplace : op.joins ≠ 0 ∧ place = room.nextPlace := by
        by_contra hnot
        rw [not_and_or, not_not] at hnot
        exact nomatch hseat'.symm.trans (seat?_perform_eq_none hseat hnot)
      cases op with
      | leave _ | say _ _ _ | receive _ | drain _ | hangUp _ => exact absurd rfl hplace.1
      | join claimed =>
          obtain ⟨this, hthis, hid, hthisName, -⟩ := room.seat?_join_next claimed
          obtain rfl : this = seat' := by
            rw [hplace.2] at hseat'
            exact Option.some.inj (hthis.symm.trans hseat')
          rcases hname with hold | hnew
          · have hnone := hannounced room.nextId
            rw [Announced, hnext, ← hplace.2, hseat] at hnone
            rw [hid] at hold
            exact absurd hold (notMem_names hnone.1 hnone.2 name)
          · rw [(Prod.mk.inj (List.mem_singleton.1 hnew)).2, hthisName]

end Room

end LineChat
