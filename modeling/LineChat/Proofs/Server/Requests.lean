import LineChat.Proofs.Server.LineDiscipline
import LineChat.Proofs.Session.Replies

set_option autoImplicit false

/-! # Requests beside a session

However requests, the end of the requests and the moves of the tasks follow on each other, a session
answers requests one by one, from the first on, for as long as it lasts; it joins the room if one of
those that it has answered asked for a shell, and then once. A session to which no such request comes
is turned away. It leaves the room and its connection as they were. -/

namespace LineChat

namespace Scene

section
variable {scene : Scene} {answered : List RequestKind}

/-- When every task waits, no request is left, unless the session has ended. -/
theorem Reachable.pending_of_waiting (h : scene.Reachable)
    (hwait : ∀ task, scene.session.step scene.room task = none)
    (hopen : scene.session.isOver = false) : scene.session.requests.pending = [] := by
  cases hattended : scene.session.requests.attended with
  | false => exact (h.attends hattended hopen).1
  | true =>
      have hrequests := Option.map_eq_none_iff.1 (hwait .requests)
      cases hpending : scene.session.requests.pending with
      | nil => rfl
      | cons kind rest => simp [RequestQueue.step, hattended, hpending] at hrequests

/-- When every task waits, the sessions that were asked for a shell have a seat, and no others. -/
theorem Reachable.seated_iff_of_waiting (h : scene.Reachable)
    (hwait : ∀ task, scene.session.step scene.room task = none) :
    scene.session.requests.shellTaken = true ↔ scene.session.ticket?.isSome = true := by
  refine ⟨fun hshell => ?_, h.admitted.seated⟩
  cases hstage : scene.session.stage with
  | seated ticket keyLoop relay =>
      rw [Session.ticket?_of_stage hstage]
      rfl
  | turnedAway => exact absurd (hshell.symm.trans (h.admitted.away hstage).2) nofun
  | lobby =>
      have hkeys : scene.session.keyStep scene.room = none := hwait .keys
      simp [Session.keyStep, hstage, Session.lobbyStep, hshell] at hkeys

/-- When every task waits and no more requests will come, a session that was not asked for a shell
    was turned away. -/
theorem Reachable.turnedAway_of_waiting (h : scene.Reachable)
    (hwait : ∀ task, scene.session.step scene.room task = none)
    (hended : scene.session.requests.arriving = false)
    (hshell : scene.session.requests.shellTaken = false) : scene.session.stage = .turnedAway := by
  cases hstage : scene.session.stage with
  | turnedAway => rfl
  | seated ticket keyLoop relay =>
      exact absurd (hshell.symm.trans (h.admitted.seated_of_stage hstage)) nofun
  | lobby =>
      exfalso
      have hpending := h.pending_of_waiting hwait (by rw [Session.isOver, hstage])
      have hrequests := Option.map_eq_none_iff.1 (hwait .requests)
      have hkeys : scene.session.keyStep scene.room = none := hwait .keys
      cases hattended : scene.session.requests.attended with
      | true => simp [RequestQueue.step, hattended, hpending, hended] at hrequests
      | false => simp [Session.keyStep, hstage, Session.lobbyStep, hshell, hattended] at hkeys

/-- A ticket for everybody who has a seat, and for nobody else. -/
theorem Reachable.length_tickets (h : scene.Reachable) :
    (tickets scene.events).length = if scene.session.ticket?.isSome = true then 1 else 0 := by
  rw [h.tickets_eq]
  cases scene.session.ticket? <;> rfl

end

/-- What has become of requests by these tags, of which the first ones were answered. -/
structure Negotiated (scene : Scene) (answered left : List String) : Prop where
  /-- Each of them was answered once, in their order. -/
  replies : replies scene.events
    = answered.map fun tag => (tag, decide (tag ∈ RequestKind.grantedTags))
  /-- However often a shell was requested, the session joins once. -/
  once : (tickets scene.events).length ≤ 1
  asked : tickets scene.events ≠ [] → "shell" ∈ answered
  /-- Nobody is turned away before every request is answered and no more will come. -/
  turnedAway : scene.session.stage = .turnedAway →
    "shell" ∉ answered ∧ left = [] ∧ scene.session.requests.arriving = false
  untouched : tickets scene.events = [] →
    ∃ script, scene.session.screen = .ofScript script

theorem Reachable.negotiated {scene : Scene} (h : scene.Reachable) {tags : List String}
    (htags : scene.given.requests = tags.map .ofTag) :
    ∃ answered left, tags = answered ++ left ∧ scene.Negotiated answered left
      ∧ scene.session.requests.pending = left.map .ofTag
      ∧ (scene.session.requests.shellTaken = true ↔ "shell" ∈ answered) := by
  obtain ⟨kinds, hrequests, hreplies, hshell⟩ := h.answers
  obtain ⟨answered, left, rfl, rfl, hleft⟩ :=
    List.map_eq_append_iff.1 (htags.symm.trans hrequests)
  rw [RequestKind.shell_mem_map_ofTag_iff] at hshell
  refine ⟨answered, left, rfl, ?_, hleft.symm, hshell⟩
  have hticket : tickets scene.events = [] ↔ scene.session.ticket? = none := by
    rw [h.tickets_eq, Option.toList_eq_nil_iff]
  refine ⟨?_, ?_, fun hsome => ?_, fun hstage => ?_, fun hnone => ?_⟩
  · rw [hreplies, List.map_map]
    exact List.map_congr_left fun tag _ => RequestKind.answer_ofTag tag
  · rw [h.length_tickets]
    split <;> omega
  · refine hshell.1 (h.admitted.seated ?_)
    rw [Option.isSome_iff_ne_none]
    exact fun hnone => hsome (hticket.2 hnone)
  · obtain ⟨hattended, hnever⟩ := h.admitted.away hstage
    obtain ⟨hpending, hended⟩ := h.attends hattended (by rw [Session.isOver, hstage])
    rw [← hleft] at hpending
    refine ⟨fun hmem => ?_, List.map_eq_nil_iff.1 hpending, hended⟩
    simp [hshell.2 hmem] at hnever
  · exact h.screen_of_unseated (hticket.1 hnone)

end Scene

namespace World

/-- A move of a session that has no seat after it leaves the room as it was. -/
theorem room_eq_of_move {world world' : World} {i : Nat} {task : Task}
    (hmove : world.happen (.move ⟨i, task⟩) = some world') (hnone : world'.ticketAt? i = none) :
    world'.server.room = world.server.room := by
  obtain ⟨session, move, -, htouch, rfl, hafter⟩ := touch_of_move hmove
  have hunseated : move.session.ticket? = none := hafter.symm.trans hnone
  cases htouch with
  | none hroom _ _ => exact hroom
  | join _ _ _ hticket => exact absurd (hunseated.symm.trans hticket) nofun
  | own _ _ _ _ _ hticket _ _ => exact absurd (hunseated.symm.trans hticket) nofun

/-- Whoever has no seat had none before. -/
theorem ticketAt?_eq_none_of_run {world world' : World} (hsound : world.Sound)
    {later : List Happening} (hrun : world.run later = some world') {i : Nat}
    (hnone : world'.ticketAt? i = none) : world.ticketAt? i = none := by
  cases hticket : world.ticketAt? i with
  | none => rfl
  | some ticket =>
      exfalso
      obtain ⟨session, hsession, hthis⟩ := Option.bind_eq_some_iff.1 hticket
      cases hscene : world.scene? i with
      | none =>
          have hbound := (List.getElem?_eq_some_iff.1 hsession).1
          exact absurd (hsound.scene?_eq_none hscene) (by omega)
      | some scene =>
          obtain ⟨scene', hscene', hsteps⟩ := (leads_of_run hsound hrun).steps i scene hscene
          obtain ⟨-, hseated, -⟩ := (world.scene?_eq_some_iff i scene).1 hscene
          obtain ⟨-, hseated', -⟩ := (world'.scene?_eq_some_iff i scene').1 hscene'
          obtain rfl := Option.some.inj (hsession.symm.trans hseated)
          have hkept := hsteps.kept.2 ticket hthis
          simp [ticketAt?, hseated', hkept] at hnone

/-- What becomes of the requests that come to a session, by whichever tags. At any moment the first
    ones have been answered, in their order and each of them once: with yes if the tag is one of the
    five that are granted, with no else. The session joins once at most, and not before a request
    for a shell was answered. When every task waits, it has joined if there was one, and every
    request is answered unless the session has ended; if no more requests will come and none was for
    a shell, the session was turned away. As long as a session has not joined, nothing was written to
    its connection, and none of its moves has changed the room. Once a session has come to its end,
    no request is taken and none is answered. -/
theorem requests_of_run {stamp : String} {picker : ColorPicker} {history : List Happening}
    {world : World} {i : Nat} {scene : Scene} {tags : List String}
    (hrun : (start stamp picker).run history = some world) (hscene : world.scene? i = some scene)
    (htags : scene.given.requests = tags.map .ofTag) :
    ∃ answered left, tags = answered ++ left ∧ scene.Negotiated answered left
      ∧ (world.server.atRest = true →
          ("shell" ∈ answered ↔ (tickets scene.events).length = 1)
          ∧ (scene.session.isOver = false → left = [])
          ∧ (scene.session.requests.arriving = false → "shell" ∉ tags →
              scene.session.outcome? = some (.failed .shellNotRequested) ∧ left = []))
      ∧ (tickets scene.events = [] →
          ∀ earlier task later past next, history = earlier ++ .move ⟨i, task⟩ :: later →
            (start stamp picker).run earlier = some past →
            past.happen (.move ⟨i, task⟩) = some next → next.server.room = past.server.room)
      ∧ ∀ outcome, scene.session.outcome? = some outcome →
          ∀ later future, world.run later = some future →
            ∃ after, future.scene? i = some after ∧ after.session.outcome? = some outcome
              ∧ replies after.events = replies scene.events
              ∧ after.given.requests = scene.given.requests := by
  have hreach := reachable_of_run hrun hscene
  obtain ⟨answered, left, htags, hnegotiated, hpending, hshell⟩ := hreach.negotiated htags
  refine ⟨answered, left, htags, hnegotiated, fun hrest => ?_, fun hnone => ?_,
    fun outcome hover later future hlater => ?_⟩
  · have hwait := waiting_of_atRest hrest hscene
    have hanswered : scene.session.isOver = false → left = [] := fun hopen =>
      List.map_eq_nil_iff.1 (hpending.symm.trans (hreach.pending_of_waiting hwait hopen))
    refine ⟨?_, hanswered, fun hended hnever => ?_⟩
    · rw [← hshell, hreach.seated_iff_of_waiting hwait, hreach.length_tickets]
      cases scene.session.ticket?.isSome <;> simp
    · have hnone : scene.session.requests.shellTaken = false := by
        rw [← Bool.not_eq_true, hshell]
        exact fun hmem => hnever (htags ▸ List.mem_append_left _ hmem)
      have hstage := hreach.turnedAway_of_waiting hwait hended hnone
      exact ⟨by rw [Session.outcome?, hstage], hanswered (by rw [Session.isOver, hstage])⟩
  · rintro earlier task later past next rfl hpast hnext
    refine room_eq_of_move hnext ?_
    have hsound := (leads_happen (sound_of_run hpast) hnext).sound
    have hlater : next.run later = some world := by
      rwa [run_append, hpast, Option.bind_some, run, hnext, Option.bind_some] at hrun
    refine ticketAt?_eq_none_of_run hsound hlater ?_
    obtain ⟨-, hsession, -⟩ := (world.scene?_eq_some_iff i scene).1 hscene
    rw [hreach.tickets_eq, Option.toList_eq_nil_iff] at hnone
    rw [ticketAt?, hsession]
    exact hnone
  · obtain ⟨after, hafter, hsteps⟩ :=
      (leads_of_run (sound_of_run hrun) hlater).steps i scene hscene
    obtain ⟨hstill, hevents, hrequests⟩ := hreach.requests_of_outcome hover hsteps
    exact ⟨after, hafter, hstill, by rw [hevents], hrequests⟩

/-- A terminal asks for what it needs, for one thing that nobody knows, and for a shell twice. -/
theorem requests_of_run_of_terminal :
    ∃ (history : List Happening) (world : World) (scene : Scene),
      (start "12:00" .plain).run history = some world ∧ world.scene? 0 = some scene
      ∧ scene.given.requests = ["pty-req", "x11-req", "shell", "shell"].map .ofTag
      ∧ replies scene.events
        = [("pty-req", true), ("x11-req", false), ("shell", true), ("shell", true)]
      ∧ (tickets scene.events).length = 1 := by
  let tags := ["pty-req", "x11-req", "shell", "shell"]
  let stimuli : List Server.Stimulus := [.connect "ann" (tags.map .ofTag) true [] .willing]
  have hend : ((start "12:00" .plain).reactions stimuli).bind (fun world =>
        (world.scene? 0).map fun scene =>
          (world.server.atRest, scene.given.requests, scene.session.isOver))
      = some (true, tags.map .ofTag, false) := by
    decide +kernel
  obtain ⟨world, hworld, hthis⟩ := Option.bind_eq_some_iff.1 hend
  obtain ⟨scene, hscene, hparts⟩ := Option.map_eq_some_iff.1 hthis
  simp only [Prod.mk.injEq] at hparts
  obtain ⟨hrest, htags, hopen⟩ := hparts
  obtain ⟨history, hrun⟩ := exists_run_of_reactions hworld
  obtain ⟨answered, left, hall, hnegotiated, hwaits, -⟩ := requests_of_run hrun hscene htags
  obtain ⟨hjoined, hleft, -⟩ := hwaits hrest
  obtain rfl := hleft hopen
  obtain rfl : tags = answered := hall.trans (List.append_nil answered)
  exact ⟨history, world, scene, hrun, hscene, htags, hnegotiated.replies, hjoined.1 (by decide)⟩

end World

end LineChat
