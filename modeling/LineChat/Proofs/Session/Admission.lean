import LineChat.Proofs.Session.Scene

set_option autoImplicit false

/-! # Getting in

A session gets a seat through a request for a shell and in no other way, and no such request is lost:
it is answered, or somebody still attends to it. -/

namespace LineChat

/-- What has become of the requests of a session. -/
structure Session.Admitted (given : Given) (session : Session) : Prop where
  asked : RequestKind.shell ∈ given.requests →
    session.requests.shellTaken = true
      ∨ session.requests.attended = true ∧ RequestKind.shell ∈ session.requests.pending
  away : session.stage = .turnedAway →
    session.requests.attended = false ∧ session.requests.shellTaken = false
  seated : session.ticket?.isSome = true → session.requests.shellTaken = true

namespace Session

theorem Admitted.seated_of_stage {given : Given} {session : Session} (h : session.Admitted given)
    {ticket : Ticket} {keyLoop : KeyLoop} {relay : Relay}
    (hstage : session.stage = .seated ticket keyLoop relay) :
    session.requests.shellTaken = true :=
  h.seated (by rw [ticket?_of_stage hstage]; rfl)

/-- A move that leaves the requests alone leaves a session in that has a seat. -/
theorem Admitted.of_requests_eq {given : Given} {session session' : Session}
    (h : session.Admitted given) (hrequests : session'.requests = session.requests)
    (haway : session'.stage ≠ .turnedAway)
    (hshell : session.requests.shellTaken = true) : session'.Admitted given where
  asked := hrequests ▸ h.asked
  away := fun hstage => absurd hstage haway
  seated := fun _ => hrequests ▸ hshell

theorem Admitted.doing {given : Given} {session : Session} {room : Room} {task : Task} {move : Move}
    (h : session.Admitted given) (hdoing : session.Doing room task move) :
    move.session.Admitted given := by
  cases hdoing with
  | @answered kind rest hattended hpending =>
      refine ⟨fun hasked => ?_, fun hstage => ?_, fun hsome => ?_⟩
      · show (session.requests.shellTaken || kind == .shell) = true ∨ _ ∧ RequestKind.shell ∈ rest
        rcases h.asked hasked with htaken | ⟨-, hmem⟩
        · simp [htaken]
        · rw [hpending] at hmem
          rcases List.mem_cons.1 hmem with rfl | hmem
          · simp
          · exact Or.inr ⟨hattended, hmem⟩
      · simp [(h.away hstage).1] at hattended
      · show (session.requests.shellTaken || kind == .shell) = true
        rw [h.seated hsome, Bool.true_or]
  | deserted hattended hpending =>
      refine ⟨fun hasked => ?_, fun hstage => ?_, h.seated⟩
      · rcases h.asked hasked with htaken | ⟨-, hmem⟩
        · exact Or.inl htaken
        · simp [hpending] at hmem
      · exact ⟨rfl, (h.away hstage).2⟩
  | joined hstage hshell => exact h.of_requests_eq rfl nofun hshell
  | turnedAway hstage hshell hattended =>
      exact ⟨h.asked, fun _ => ⟨hattended, hshell⟩, nofun⟩
  | ended hstage =>
      have hshell := h.seated_of_stage hstage
      exact ⟨fun _ => Or.inl hshell, nofun, fun _ => hshell⟩
  | keysCalled hstage | keysHeldUp hstage | keysDrew hstage | keysFailed hstage | opened hstage
  | ready hstage | tookLeave hstage | readOn hstage | enteredBlank hstage | entered hstage
  | acknowledged hstage | trimmed hstage | appended hstage | ignored hstage | closedBlank hstage
  | closed hstage | readFailed hstage | left hstage | fetched hstage | relayEnded hstage
  | relayCalled hstage | relayHeldUp hstage | relayDrew hstage | relayFailed hstage
  | relayReady hstage => exact h.of_requests_eq rfl nofun (h.seated_of_stage hstage)

end Session

theorem Scene.Reachable.admitted {scene : Scene} (h : scene.Reachable) :
    scene.session.Admitted scene.given := by
  refine h.invariant (P := fun scene => scene.session.Admitted scene.given) ?_ ?_
  · exact fun _ _ _ _ _ _ => ⟨fun hasked => Or.inr ⟨rfl, hasked⟩, nofun, nofun⟩
  · intro scene scene' _ hbefore hstep
    cases hstep with
    | moved hmove => exact hbefore.doing (Session.doing_of_step hmove)
    | disturbed _ _ | clock _ | askedAll | fed _ | rescripted _ =>
        exact ⟨hbefore.asked, hbefore.away, hbefore.seated⟩
    | asked kind =>
        obtain ⟨hasked, haway, hseated⟩ := hbefore
        show Session.Admitted { scene.given with requests := scene.given.requests ++ _ }
          { scene.session with requests := _ }
        unfold RequestQueue.push
        split
        · rename_i htakes
          have hattended := (Bool.and_eq_true_iff.1 htakes).2
          refine ⟨fun hmem => ?_, fun hstage => ?_, hseated⟩
          · rcases List.mem_append.1 hmem with hmem | hmem
            · exact (hasked hmem).imp id fun ⟨_, hpending⟩ =>
                ⟨hattended, List.mem_append_left _ hpending⟩
            · exact Or.inr ⟨hattended, List.mem_append_right _ hmem⟩
          · simp [(haway hstage).1] at hattended
        · refine ⟨fun hmem => hasked ?_, haway, hseated⟩
          simpa using hmem

end LineChat
