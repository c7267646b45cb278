import LineChat.Proofs.Room.Delivery

set_option autoImplicit false

/-! # Going round in any order

A line goes to the registered seats one by one, and which of them comes first is nobody's business.
Whatever way is taken round the registry, and taken anew for every line, the room is the same
afterwards, and so is the answer. Only the events come in another order, and even of these each queue
has the same ones, one after the other (`performIn_same`). What is so for one operation is so for
whole histories (`course_eq_of_deeds_eq`). -/

namespace LineChat.Room

/-! ## One line -/

section
variable {room : Room} {order order' : List Member}

theorem deliveries_perm (h : order.Perm order') (source? : Option ParticipantId) (line : String) :
    (deliveries order source? line).Perm (deliveries order' source? line) :=
  (h.filter _).map _

/-- Each queue takes the line or does not, in whatever order it is offered to the others. -/
theorem deliveredTo_deliveries_of_perm (h : order.Perm room.registry)
    (source? : Option ParticipantId) (line : String) (place : Place) :
    deliveredTo place (deliveries order source? line)
      = deliveredTo place (deliveries room.registry source? line) := by
  have hperm : (deliveredTo place (deliveries order source? line)).Perm
      (deliveredTo place (deliveries room.registry source? line)) :=
    (deliveries_perm h source? line).filterMap _
  have hlength := length_deliveredTo_deliveries_le room source? line place
  -- no queue is offered a line twice, so there is nothing to be rearranged
  match hdelivered : deliveredTo place (deliveries room.registry source? line) with
  | [] => exact (hdelivered ▸ hperm).eq_nil
  | [_] => exact (hdelivered ▸ hperm).eq_singleton
  | _ :: _ :: _ =>
      rw [hdelivered] at hlength
      exact absurd hlength (by simp)

/-- What two turns have in common in which a line goes round in different orders. -/
structure Turn.Same {α : Type} (turn turn' : Turn α) : Prop where
  room : turn.room = turn'.room
  answer : turn.answer = turn'.answer
  events : turn.events.Perm turn'.events
  delivered : ∀ place, deliveredTo place turn.events = deliveredTo place turn'.events

theorem Turn.Same.refl {α : Type} (turn : Turn α) : turn.Same turn :=
  ⟨rfl, rfl, .refl _, fun _ => rfl⟩

theorem Turn.Same.of_round {α : Type} (h : order.Perm room.registry)
    (h' : order'.Perm room.registry) (source? : Option ParticipantId) (line : String) (answer : α)
    (event : Event) :
    Turn.Same ⟨room.deliver order source? line, answer, event :: deliveries order source? line⟩
      ⟨room.deliver order' source? line, answer, event :: deliveries order' source? line⟩ where
  room := (deliver_eq_adjust h source? line).trans (deliver_eq_adjust h' source? line).symm
  answer := rfl
  events := (deliveries_perm (h.trans h'.symm) source? line).cons event
  delivered place := by
    rw [← List.singleton_append, deliveredTo_append, deliveredTo_deliveries_of_perm h,
      ← deliveredTo_deliveries_of_perm h', ← deliveredTo_append, List.singleton_append]

end

/-! ## One operation -/

/-- A way to go round: the registry, rearranged. -/
structure Arrangement where
  apply : List Member → List Member
  perm : ∀ registry, (apply registry).Perm registry

/-- The way that follows the order of joining, as it is taken by `perform`. -/
def Arrangement.joining : Arrangement :=
  ⟨fun order => order, .refl⟩

/-- An operation comes to the same, whatever way is taken round the registry. -/
theorem performIn_same (arrangement arrangement' : Arrangement) (room : Room) (op : Op) :
    (room.performIn arrangement.apply op).Same (room.performIn arrangement'.apply op) := by
  cases op with
  | join name =>
      exact @Turn.Same.of_round (room.enrol name).1 _ _ _ (arrangement.perm _)
        (arrangement'.perm _) none _ _ _
  | leave id =>
      cases hmember : room.member? id with
      | none =>
          simp only [performIn, leaveIn, hmember]
          exact .refl _
      | some member =>
          simp only [performIn, leaveIn, hmember]
          exact @Turn.Same.of_round (room.struck id) _ _ _ (arrangement.perm _)
            (arrangement'.perm _) none _ _ _
  | say id fallback text =>
      exact Turn.Same.of_round (arrangement.perm _) (arrangement'.perm _) (some id) _ _ _
  | receive _ | drain _ | hangUp _ => exact .refl _

/-! ## Histories -/

/-- Carries out a deed. If it makes a line go round, this is the way it takes. -/
def doingIn (arrangement : Arrangement) (room : Room) (deed : Deed) : Turn Answer :=
  (room.stamped deed.stamp).performIn arrangement.apply deed.op

/-- Carries out a history in which every deed comes with a way of its own to go round. -/
def course (room : Room) : List (Arrangement × Deed) → Turn (List Answer)
  | [] => ⟨room, [], []⟩
  | (arrangement, deed) :: steps =>
    let turn := room.doingIn arrangement deed
    let rest := turn.room.course steps
    ⟨rest.room, turn.answer :: rest.answer, turn.events ++ rest.events⟩

/-- What is taken out of the queue at a place in the course of such a history. -/
def receivedIn (place : Place) (room : Room) : List (Arrangement × Deed) → List String
  | [] => []
  | (arrangement, deed) :: steps =>
    let turn := room.doingIn arrangement deed
    taken place deed.op turn.answer ++ receivedIn place turn.room steps

theorem doingIn_same (arrangement arrangement' : Arrangement) (room : Room) (deed : Deed) :
    (room.doingIn arrangement deed).Same (room.doingIn arrangement' deed) :=
  performIn_same arrangement arrangement' _ _

theorem course_same {steps steps' : List (Arrangement × Deed)}
    (h : steps.map Prod.snd = steps'.map Prod.snd) (room : Room) :
    (room.course steps).Same (room.course steps') := by
  induction steps generalizing room steps' with
  | nil =>
      obtain rfl : steps' = [] := List.map_eq_nil_iff.1 h.symm
      exact .refl _
  | cons step steps ih =>
      obtain ⟨⟨arrangement', deed⟩, steps', rfl, rfl, hrest⟩ := List.map_eq_cons_iff.1 h.symm
      obtain ⟨arrangement, deed⟩ := step
      have hthis := doingIn_same arrangement arrangement' room deed
      have hlater := ih hrest.symm (room.doingIn arrangement deed).room
      unfold course
      dsimp only
      rw [← hthis.room]
      exact {
        room := hlater.room
        answer := congrArg₂ List.cons hthis.answer hlater.answer
        events := hthis.events.append hlater.events
        delivered := fun place => by
          rw [deliveredTo_append, deliveredTo_append, hthis.delivered, hlater.delivered] }

/-- Whatever ways it takes, a history leads where it leads if all goes round in the order of
    joining. -/
theorem course_room (room : Room) (steps : List (Arrangement × Deed)) :
    (room.course steps).room = room.after (steps.map Prod.snd) := by
  induction steps generalizing room with
  | nil => rfl
  | cons step steps ih =>
      have hthis := doingIn_same step.1 .joining room step.2
      show ((room.doingIn step.1 step.2).room.course steps).room = _
      rw [ih, hthis.room]
      rfl

theorem receivedIn_eq (place : Place) (room : Room) (steps : List (Arrangement × Deed)) :
    receivedIn place room steps = received place room (steps.map Prod.snd) := by
  induction steps generalizing room with
  | nil => rfl
  | cons step steps ih =>
      have hthis := doingIn_same step.1 .joining room step.2
      show taken place step.2.op (room.doingIn step.1 step.2).answer ++ receivedIn place _ steps = _
      rw [ih, hthis.answer, hthis.room]
      rfl

/-- Nothing depends on the order in which a line goes round. Take two histories with the same deeds,
    every line of which may go round in one way here and in another way there. In the end the room
    is the same, with every queue of it, and it is the one that there is if all goes round in the
    order of joining. Every answer is the same, and so is what anybody has received. Every queue
    takes the same lines in the same order, and nothing happens here that does not happen there. -/
theorem course_eq_of_deeds_eq (room : Room) (steps steps' : List (Arrangement × Deed))
    (h : steps.map Prod.snd = steps'.map Prod.snd) :
    (room.course steps).room = (room.course steps').room
      ∧ (room.course steps).room = room.after (steps.map Prod.snd)
      ∧ (room.course steps).answer = (room.course steps').answer
      ∧ (∀ place, receivedIn place room steps = receivedIn place room steps')
      ∧ (∀ place, deliveredTo place (room.course steps).events
          = deliveredTo place (room.course steps').events)
      ∧ (room.course steps).events.Perm (room.course steps').events := by
  have hsame := course_same h room
  refine ⟨hsame.room, course_room room steps, hsame.answer, fun place => ?_, hsame.delivered,
    hsame.events⟩
  rw [receivedIn_eq, receivedIn_eq, h]

/-- Here everything goes round in the order of joining, there whatever eve says goes the other way.
    In the end ann's queue is full, bob has given up his, and eve is not told what she says. The
    refusals come in different orders, and ann cannot tell. -/
theorem course_eq_of_deeds_eq_of_crowd :
    let backwards : Arrangement := ⟨List.reverse, List.reverse_perm⟩
    let deeds : List Deed :=
      [⟨"12:00", .join "ann"⟩, ⟨"12:00", .join "bob"⟩, ⟨"12:00", .join "eve"⟩,
        ⟨"12:01", .hangUp ⟨1⟩⟩]
      ++ List.replicate 14 ⟨"12:02", .say ⟨3⟩ "" "hey"⟩
      ++ [⟨"12:03", .receive ⟨0⟩⟩, ⟨"12:03", .leave ⟨2⟩⟩, ⟨"12:04", .drain ⟨0⟩⟩]
    let steps := deeds.map fun deed => (Arrangement.joining, deed)
    let steps' := deeds.map fun deed =>
      (if deed.stamp = "12:02" then backwards else .joining, deed)
    let room := empty "12:00" .plain
    steps.map Prod.snd = steps'.map Prod.snd
      ∧ (room.course steps).events ≠ (room.course steps').events
      ∧ (room.course steps).answer = (room.course steps').answer
      ∧ (receivedIn ⟨0⟩ room steps').length = 17
      ∧ (receivedIn ⟨0⟩ room steps').getLast? = some "[12:03] [system] bob left the chat" := by
  intro backwards deeds steps steps' room
  have hdeeds : steps.map Prod.snd = steps'.map Prod.snd := by
    simp only [steps, steps', List.map_map, Function.comp_def]
  obtain ⟨-, -, hanswer, hreceived, -⟩ := course_eq_of_deeds_eq room steps steps' hdeeds
  refine ⟨hdeeds, by decide +kernel, hanswer, ?_⟩
  rw [← hreceived ⟨0⟩]
  decide +kernel

end LineChat.Room
