import LineChat.Proofs.Session.Admission
import LineChat.Proofs.Session.Discipline
import LineChat.Proofs.Session.Terminal

set_option autoImplicit false

/-! # Requests and replies

Requests are answered in the order of arrival and each of them once: those that have been answered
and those that are pending are together all that were taken (`Answers`). Whether a shell was requested
is seen from the answered ones alone. Nobody stops attending to the requests before the last of them
is answered, unless the session has come to its end (`Attends`). -/

namespace LineChat

/-! ## Answers -/

namespace RequestKind

/-- The tags that are granted. -/
def grantedTags : List String :=
  ["shell", "pty-req", "env", "window-change", "signal"]

/-- Five tags are granted, and no other. -/
theorem granted_ofTag (tag : String) : (ofTag tag).granted = decide (tag ∈ grantedTags) := by
  grind [ofTag, granted, grantedTags]

/-- One tag alone asks for a shell. -/
theorem ofTag_eq_shell_iff (tag : String) : ofTag tag = shell ↔ tag = "shell" := by
  grind [ofTag]

/-- A tag with the answer to it. -/
def answer (kind : RequestKind) : String × Bool :=
  (kind.tag, kind.granted)

theorem answer_ofTag (tag : String) : (ofTag tag).answer = (tag, decide (tag ∈ grantedTags)) := by
  rw [answer, tag_ofTag, granted_ofTag]

theorem shell_mem_map_ofTag_iff (tags : List String) :
    shell ∈ tags.map ofTag ↔ "shell" ∈ tags := by
  rw [List.mem_map]
  constructor
  · rintro ⟨tag, hmem, htag⟩
    rwa [← (ofTag_eq_shell_iff tag).1 htag]
  · exact fun hmem => ⟨"shell", hmem, rfl⟩

end RequestKind

/-- The answer that was given. -/
def Event.reply? : Event → Option (String × Bool)
  | .replied kind granted => some (kind.tag, granted)
  | _ => none

/-- The answers that were given, in order, each with the tag that it was given to. -/
def replies (events : List Event) : List (String × Bool) :=
  events.filterMap Event.reply?

@[simp] theorem replies_append (events events' : List Event) :
    replies (events ++ events') = replies events ++ replies events' :=
  List.filterMap_append

@[simp] theorem replies_map_room (events : List Room.Event) : replies (events.map .room) = [] := by
  simp [replies, List.filterMap_map, Function.comp_def, Event.reply?]

@[simp] theorem replies_closing (ticket : Ticket) (outcome : Outcome) (fault? : Option IoFault) :
    replies (ticket.closing outcome fault?) = [] := by
  cases fault? <;> rfl

/-! ## What has been answered -/

/-- These requests have been answered, and the others are pending. -/
structure Session.Answers (given : Given) (session : Session) (events : List Event)
    (answered : List RequestKind) : Prop where
  requests : given.requests = answered ++ session.requests.pending
  replies : replies events = answered.map RequestKind.answer
  shell : session.requests.shellTaken = true ↔ RequestKind.shell ∈ answered

namespace Session

variable {given : Given} {session session' : Session} {events news : List Event}
variable {answered : List RequestKind}

/-- A move that leaves the requests alone answers none. -/
theorem Answers.quiet (h : session.Answers given events answered)
    (hrequests : session'.requests.pending = session.requests.pending
      ∧ session'.requests.shellTaken = session.requests.shellTaken)
    (hnone : LineChat.replies news = []) : session'.Answers given (events ++ news) answered where
  requests := by rw [hrequests.1, h.requests]
  replies := by rw [replies_append, hnone, List.append_nil, h.replies]
  shell := by rw [hrequests.2, h.shell]

/-- The request that is answered is the oldest one that is pending. -/
theorem Answers.answer (h : session.Answers given events answered) {kind : RequestKind}
    {rest : List RequestKind} (hpending : session.requests.pending = kind :: rest)
    (hrest : session'.requests.pending = rest)
    (htaken : session'.requests.shellTaken = (session.requests.shellTaken || kind == .shell)) :
    session'.Answers given (events ++ [.replied kind kind.granted]) (answered ++ [kind]) where
  requests := by
    rw [h.requests, hpending, hrest, List.append_assoc]
    rfl
  replies := by
    rw [replies_append, h.replies, List.map_append]
    rfl
  shell := by
    rw [htaken, Bool.or_eq_true, h.shell, List.mem_append, List.mem_singleton, beq_iff_eq, eq_comm]

theorem Answers.doing {room : Room} {task : Task} {move : Move}
    (h : session.Answers given events answered) (hdoing : session.Doing room task move) :
    ∃ answered', move.session.Answers given (events ++ move.events) answered' := by
  cases hdoing with
  | answered _ hpending => exact ⟨_, h.answer hpending rfl rfl⟩
  | deserted _ hpending => exact ⟨answered, h.quiet ⟨hpending ▸ rfl, rfl⟩ rfl⟩
  | joined | entered | left => exact ⟨answered, h.quiet ⟨rfl, rfl⟩ (replies_map_room _)⟩
  | closed => exact ⟨answered, h.quiet ⟨rfl, rfl⟩ (replies_map_room _)⟩
  | ended => exact ⟨answered, h.quiet ⟨rfl, rfl⟩ (replies_closing ..)⟩
  | turnedAway | keysCalled | keysHeldUp | keysDrew | keysFailed | opened | ready | tookLeave
  | readOn | enteredBlank | acknowledged | trimmed | appended | ignored | closedBlank | readFailed
  | fetched | relayEnded | relayCalled | relayHeldUp | relayDrew | relayFailed | relayReady =>
      exact ⟨answered, h.quiet ⟨rfl, rfl⟩ rfl⟩

end Session

/-- In every scene the requests that were taken have been answered or are pending. -/
theorem Scene.Reachable.answers {scene : Scene} (h : scene.Reachable) :
    ∃ answered, scene.session.Answers scene.given scene.events answered := by
  refine h.invariant
    (P := fun scene => ∃ answered, scene.session.Answers scene.given scene.events answered) ?_ ?_
  · exact fun _ _ _ _ _ _ => ⟨[], rfl, rfl, nofun, nofun⟩
  · intro scene scene' _ hbefore hstep
    obtain ⟨answered, hbefore⟩ := hbefore
    cases hstep with
    | moved hmove => exact hbefore.doing (Session.doing_of_step hmove)
    | disturbed _ _ | clock _ | askedAll | fed _ | rescripted _ =>
        exact ⟨answered, hbefore.requests, hbefore.replies, hbefore.shell⟩
    | asked kind =>
        refine ⟨answered, ?_⟩
        show Session.Answers { scene.given with requests := scene.given.requests ++ _ }
          { scene.session with requests := _ } scene.events answered
        unfold RequestQueue.push
        split
        · refine ⟨?_, hbefore.replies, hbefore.shell⟩
          show scene.given.requests ++ [kind] = answered ++ (scene.session.requests.pending ++ [kind])
          rw [hbefore.requests, List.append_assoc]
        · refine ⟨?_, hbefore.replies, hbefore.shell⟩
          show scene.given.requests ++ [] = _
          rw [List.append_nil, hbefore.requests]

/-! ## Attending -/

/-- Nobody leaves requests alone before the last of them is answered, or the session has ended. -/
def Session.Attends (session : Session) : Prop :=
  session.requests.attended = false → session.isOver = false →
    session.requests.pending = [] ∧ session.requests.arriving = false

theorem Session.Attends.doing {session : Session} {room : Room} {task : Task} {move : Move}
    (h : session.Attends) (hwinding : session.Winding) (hdoing : session.Doing room task move) :
    move.session.Attends := by
  have hopen := hwinding.isOver_of_doing hdoing
  cases hdoing with
  | answered hattended => exact fun hnot => absurd (hnot.symm.trans hattended) nofun
  | deserted _ hpending harriving => exact fun _ _ => ⟨hpending, harriving⟩
  | ended => exact fun _ hstill => nomatch hstill
  | joined | turnedAway | keysCalled | keysHeldUp | keysDrew | keysFailed | opened | ready
  | tookLeave | readOn | enteredBlank | entered | acknowledged | trimmed | appended | ignored
  | closedBlank | closed | readFailed | left | fetched | relayEnded | relayCalled | relayHeldUp
  | relayDrew | relayFailed | relayReady => exact fun hnot _ => h hnot hopen

/-- In every scene the requests are attended to as they should be. -/
theorem Scene.Reachable.attends {scene : Scene} (h : scene.Reachable) : scene.session.Attends := by
  refine h.invariant (P := fun scene => scene.session.Attends) ?_ ?_
  · exact fun _ _ _ _ _ _ => nofun
  · intro scene scene' hscene hbefore hstep
    cases hstep with
    | moved hmove => exact hbefore.doing hscene.winding (Session.doing_of_step hmove)
    | disturbed _ _ | clock _ | fed _ | rescripted _ => exact hbefore
    | askedAll => exact fun hnot hopen => ⟨(hbefore hnot hopen).1, rfl⟩
    | asked kind =>
        intro hnot hopen
        have hattended : scene.session.requests.attended = false := by
          rw [← hnot]
          show _ = (scene.session.requests.push kind).2.attended
          unfold RequestQueue.push
          split <;> rfl
        have hsame : (scene.session.requests.push kind).2 = scene.session.requests := by
          simp [RequestQueue.push, hattended]
        show (scene.session.requests.push kind).2.pending = []
          ∧ (scene.session.requests.push kind).2.arriving = false
        rw [hsame]
        exact hbefore hattended hopen

/-! ## Without a seat -/

/-- Nothing is written to the connection of a session that has no seat. -/
theorem Scene.Reachable.screen_of_unseated {scene : Scene} (h : scene.Reachable)
    (hnone : scene.session.ticket? = none) :
    ∃ script, scene.session.screen = .ofScript script := by
  revert hnone
  refine h.invariant (P := fun scene => scene.session.ticket? = none →
    ∃ script, scene.session.screen = .ofScript script) ?_ ?_
  · exact fun _ _ script _ _ _ _ => ⟨script, rfl⟩
  · intro scene scene' _ hbefore hstep hnone
    cases hstep with
    | disturbed _ _ | clock _ | asked _ | askedAll | fed _ => exact hbefore hnone
    | rescripted script =>
        obtain ⟨script', hscreen⟩ := hbefore hnone
        refine ⟨script, ?_⟩
        show scene.session.screen.rescript script = _
        rw [hscreen]
        rfl
    | moved hmove =>
        cases Session.doing_of_step hmove with
        | answered | deserted => exact hbefore hnone
        | turnedAway hstage => exact hbefore (Session.ticket?_of_lobby hstage)
        | _ => exact nomatch hnone

/-! ## After the end -/

/-- No task of a session that has ended, or was turned away, has a move. -/
theorem Session.outcome?_of_doing {session : Session} {room : Room} {task : Task} {move : Move}
    {given : Given} (hadmitted : session.Admitted given) (hwinding : session.Winding)
    (hdoing : session.Doing room task move) : session.outcome? = none := by
  have hopen := hwinding.isOver_of_doing hdoing
  cases hstage : session.stage with
  | lobby => rw [outcome?, hstage]
  | turnedAway =>
      -- nobody attends to its requests, and the other tasks are not there
      have hattended := (hadmitted.away hstage).1
      cases hdoing with
      | answered hthis | deserted hthis => simp [hattended] at hthis
      | _ hthis => simp [hstage] at hthis
  | seated ticket keyLoop relay =>
      rw [isOver, hstage] at hopen
      rw [outcome?, hstage]
      cases keyLoop with
      | ended outcome => simp at hopen
      | drawing _ _ | reading | leaving _ | draining _ => rfl

/-- Once a session has ended, or was turned away, no request is answered and none is taken. -/
theorem Scene.Reachable.requests_of_outcome {scene scene' : Scene} (h : scene.Reachable)
    {outcome : Outcome} (hover : scene.session.outcome? = some outcome)
    (hsteps : scene.Steps scene') :
    scene'.session.outcome? = some outcome ∧ scene'.events = scene.events
      ∧ scene'.given.requests = scene.given.requests := by
  induction hsteps with
  | refl => exact ⟨hover, rfl, rfl⟩
  | @tail between last hbefore hlast ih =>
      obtain ⟨hstill, hevents, hrequests⟩ := ih
      have hreach := h.steps hbefore
      cases hlast with
      | moved hmove =>
          have hnone := Session.outcome?_of_doing hreach.admitted hreach.winding
            (Session.doing_of_step hmove)
          exact absurd (hnone.symm.trans hstill) nofun
      | disturbed _ _ | clock _ | askedAll | fed _ | rescripted _ =>
          exact ⟨hstill, hevents, hrequests⟩
      | asked kind =>
          have hattended : between.session.requests.attended = false := by
            cases hstage : between.session.stage with
            | lobby => simp [Session.outcome?, hstage] at hstill
            | turnedAway => exact (hreach.admitted.away hstage).1
            | seated ticket keyLoop relay =>
                cases keyLoop with
                | ended outcome => exact (hreach.winding.ended _ _ _ hstage).2.1
                | drawing _ _ | reading | leaving _ | draining _ =>
                    simp [Session.outcome?, hstage] at hstill
          refine ⟨hstill, hevents, ?_⟩
          show between.given.requests
            ++ (if (between.session.requests.push kind).1 then [kind] else []) = _
          simpa [RequestQueue.push, hattended] using hrequests

end LineChat
