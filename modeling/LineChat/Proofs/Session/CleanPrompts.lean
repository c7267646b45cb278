import LineChat.Proofs.Room.Wording
import LineChat.Proofs.Session.CleanTyping
import LineChat.Proofs.Session.Drawing

set_option autoImplicit false

/-! # What is being typed has no control characters

At every moment the line that is being typed has none, for no step of the reader gives one. A prompt
shows that line as it stood when the prompt was asked for, so no prompt has one either, whether it is
through, being drawn or in line (`Session.Tidy`). What is said of the line is the line without the
blanks around it (`Session.Doing.submitted`). -/

namespace LineChat

/-! ## Drawings -/

/-- A drawing whose prompt, if it is one, shows a line without control characters. -/
def Draw.Tidy (draw : Draw) : Prop :=
  ∀ header line, draw = .prompt header line → Text.Clean line

/-- A pen that has no other drawings in hand. -/
def Pen.Tidy (pen : Pen) : Prop :=
  ∀ draw ∈ pen.held ++ pen.awaited, draw.Tidy

theorem Call.tidy_draw {draft : String} (h : Text.Clean draft) (online : Nat) (call : Call) :
    (call.draw online draft).Tidy := by
  intro header line hdraw
  cases call with
  | clear | line _ => exact nomatch hdraw
  | prompt =>
      obtain ⟨-, rfl⟩ := Draw.prompt.inj hdraw
      exact h

namespace Pen

variable {pen pen' : Pen} {screen screen' : Screen} {draw : Draw} {online : Nat} {draft : String}
variable {busy : Bool}

theorem tidy_ready (calls : List Call) : (ready calls).Tidy :=
  List.forall_mem_nil _

theorem Tidy.admitted (h : pen.Tidy) (screen : Screen) : (pen.admitted screen).Tidy := by
  cases pen with
  | ready _ | queued _ _ | writing _ _ _ => exact h

theorem tidy_called (hdraft : Text.Clean draft)
    (hstep : pen.step online draft screen busy = some (.called pen')) : pen'.Tidy := by
  obtain ⟨call, later, rfl, rfl⟩ := called_of_step hstep
  have hthis : ∀ draw ∈ [call.draw online draft], draw.Tidy :=
    List.forall_mem_singleton.2 (call.tidy_draw hdraft online)
  cases busy <;> exact hthis

theorem Tidy.heldUp (h : pen.Tidy)
    (hstep : pen.step online draft screen busy = some (.heldUp pen' screen')) : pen'.Tidy := by
  obtain ⟨draw, strokes, strokes', later, rfl, rfl, -⟩ := heldUp_of_step hstep
  exact h

theorem Tidy.drew (h : pen.Tidy)
    (hstep : pen.step online draft screen busy = some (.drew draw pen' screen')) :
    draw.Tidy ∧ pen'.Tidy := by
  obtain ⟨strokes, later, rfl, rfl, -⟩ := drew_of_step hstep
  exact ⟨h draw (List.mem_singleton_self draw), tidy_ready later⟩

end Pen

/-! ## Drafts -/

namespace Draft

theorem toList_text (draft : Draft) : draft.text.toList = draft.chars :=
  String.toList_ofList

theorem clean_empty : Text.Clean empty.text := by
  decide

theorem clean_append {draft : Draft} (h : Text.Clean draft.text) {c : Char}
    (hc : Text.isControl c = false) : Text.Clean (draft.append c).text := by
  rw [Text.clean_iff, toList_text] at h ⊢
  rw [chars_append, List.forall_mem_append, List.forall_mem_singleton]
  exact ⟨h, hc⟩

theorem clean_trimLast {draft : Draft} (h : Text.Clean draft.text) :
    Text.Clean draft.trimLast.text := by
  rw [Text.clean_iff, toList_text] at h ⊢
  rw [chars_trimLast]
  exact fun c hc => h c ((List.dropLast_sublist _).subset hc)

end Draft

/-! ## Sessions -/

/-- There is no control character in the line that is being typed, nor in the line of a prompt that
    has been drawn or is to be. -/
structure Session.Tidy (session : Session) (events : List Event) : Prop where
  draft : Text.Clean session.draft.text
  drawn : ∀ draw ∈ drawn events, draw.Tidy
  pens : ∀ ticket keyLoop relay, session.stage = .seated ticket keyLoop relay →
    keyLoop.pen.Tidy ∧ relay.pen.Tidy

namespace Session

variable {session : Session} {events : List Event}

theorem Tidy.of_stage {ticket : Ticket} {keyLoop : KeyLoop} {relay : Relay}
    (hdraft : Text.Clean session.draft.text) (hdrawn : ∀ draw ∈ LineChat.drawn events, draw.Tidy)
    (hstage : session.stage = .seated ticket keyLoop relay) (hkeys : keyLoop.pen.Tidy)
    (hrelay : relay.pen.Tidy) : session.Tidy events :=
  ⟨hdraft, hdrawn, forall_stage (P := fun _ keyLoop relay => keyLoop.pen.Tidy ∧ relay.pen.Tidy)
    hstage ⟨hkeys, hrelay⟩⟩

/-- So is everything that has been asked for. -/
theorem Tidy.asked {ticket : Ticket} {keyLoop : KeyLoop} {relay : Relay} (h : session.Tidy events)
    (hstage : session.stage = .seated ticket keyLoop relay) :
    ∀ draw ∈ Pen.asked (LineChat.drawn events) keyLoop.pen relay.pen, draw.Tidy := by
  intro draw hdraw
  obtain ⟨hkeys, hrelay⟩ := h.pens ticket keyLoop relay hstage
  simp only [Pen.asked, List.mem_append] at hdraw
  rcases hdraw with (hdrawn | hheld | hheld) | hawaited | hawaited
  · exact h.drawn draw hdrawn
  · exact hkeys draw (List.mem_append_left _ hheld)
  · exact hrelay draw (List.mem_append_left _ hheld)
  · exact hkeys draw (List.mem_append_right _ hawaited)
  · exact hrelay draw (List.mem_append_right _ hawaited)

theorem Tidy.doing {room : Room} {task : Task} {move : Move} (h : session.Tidy events)
    (hdoing : session.Doing room task move) : move.session.Tidy (events ++ move.events) := by
  obtain ⟨hdraft, hdrawn, hpens⟩ := h
  -- what is drawn so far, as the record goes on without a drawing or with one
  have hsilent : LineChat.drawn move.events = [] →
      ∀ draw ∈ LineChat.drawn (events ++ move.events), draw.Tidy :=
    fun hnone => (drawn_append_of_eq_nil events hnone).symm ▸ hdrawn
  have hdrew : ∀ {task draw}, draw.Tidy →
      ∀ other ∈ LineChat.drawn (events ++ [.drew task draw]), other.Tidy := by
    intro task draw hdraw
    rw [drawn_append, List.forall_mem_append]
    exact ⟨hdrawn, List.forall_mem_singleton.2 hdraw⟩
  have hidle : (Pen.ready []).Tidy := Pen.tidy_ready []
  cases hdoing with
  | answered | deserted => exact ⟨hdraft, hsilent rfl, hpens⟩
  | turnedAway => exact ⟨hdraft, hsilent rfl, fun _ _ _ hstage => nomatch hstage⟩
  | joined => exact .of_stage hdraft (hsilent (drawn_map_room _)) rfl (Pen.tidy_ready _) hidle
  | keysCalled hstage hpen =>
      exact .of_stage hdraft (hsilent rfl) rfl (Pen.tidy_called hdraft hpen) (hpens _ _ _ hstage).2
  | keysHeldUp hstage hpen =>
      obtain ⟨hkeys, hrelay⟩ := hpens _ _ _ hstage
      exact .of_stage hdraft (hsilent rfl) rfl (hkeys.heldUp hpen) hrelay
  | @keysDrew ticket pen pen' aim relay screen draw hstage hpen =>
      obtain ⟨hkeys, hrelay⟩ := hpens _ _ _ hstage
      obtain ⟨hdraw, hkeys'⟩ := hkeys.drew hpen
      refine .of_stage hdraft (hdrew hdraw) rfl hkeys' ?_
      rw [relay.pen_admitted]
      exact hrelay.admitted screen
  | @keysFailed ticket pen aim relay screen fault hstage =>
      refine .of_stage hdraft (hsilent rfl) rfl hidle ?_
      rw [relay.pen_admitted]
      exact (hpens _ _ _ hstage).2.admitted screen
  | opened => exact .of_stage hdraft (hsilent rfl) rfl (Pen.tidy_ready _) hidle
  | ready hstage | tookLeave hstage | readOn hstage | ignored hstage | readFailed hstage =>
      exact .of_stage hdraft (hsilent rfl) rfl (Pen.tidy_ready _) (hpens _ _ _ hstage).2
  | enteredBlank hstage | acknowledged hstage | closedBlank hstage =>
      exact .of_stage Draft.clean_empty (hsilent rfl) rfl (Pen.tidy_ready _) (hpens _ _ _ hstage).2
  | entered hstage | closed hstage =>
      exact .of_stage Draft.clean_empty (hsilent (drawn_map_room _)) rfl (Pen.tidy_ready _)
        (hpens _ _ _ hstage).2
  | trimmed hstage =>
      exact .of_stage (Draft.clean_trimLast hdraft) (hsilent rfl) rfl (Pen.tidy_ready _)
        (hpens _ _ _ hstage).2
  | appended hstage hread =>
      exact .of_stage (Draft.clean_append hdraft (KeyReader.isControl_of_step hread)) (hsilent rfl)
        rfl (Pen.tidy_ready _) (hpens _ _ _ hstage).2
  | left hstage =>
      exact .of_stage hdraft (hsilent (drawn_map_room _)) rfl hidle (hpens _ _ _ hstage).2
  | ended hstage =>
      exact .of_stage hdraft (hsilent (drawn_closing ..)) rfl hidle (hpens _ _ _ hstage).2
  | fetched hstage | relayEnded hstage | relayReady hstage =>
      exact .of_stage hdraft (hsilent rfl) rfl (hpens _ _ _ hstage).1 (Pen.tidy_ready _)
  | relayCalled hstage hpen =>
      exact .of_stage hdraft (hsilent rfl) rfl (hpens _ _ _ hstage).1 (Pen.tidy_called hdraft hpen)
  | relayHeldUp hstage hpen =>
      obtain ⟨hkeys, hrelay⟩ := hpens _ _ _ hstage
      exact .of_stage hdraft (hsilent rfl) rfl hkeys (hrelay.heldUp hpen)
  | @relayDrew ticket keyLoop pen pen' screen draw hstage hpen =>
      obtain ⟨hkeys, hrelay⟩ := hpens _ _ _ hstage
      obtain ⟨hdraw, hrelay'⟩ := hrelay.drew hpen
      refine .of_stage hdraft (hdrew hdraw) rfl ?_ hrelay'
      rw [keyLoop.pen_admitted]
      exact hkeys.admitted screen
  | @relayFailed ticket keyLoop pen screen fault hstage =>
      refine .of_stage hdraft (hsilent rfl) rfl ?_ hidle
      rw [keyLoop.pen_admitted]
      exact (hpens _ _ _ hstage).1.admitted screen

end Session

/-- In every scene there is no control character in the line that is being typed, nor in a prompt. -/
theorem Scene.Reachable.tidy {scene : Scene} (h : scene.Reachable) :
    scene.session.Tidy scene.events := by
  refine h.invariant (P := fun scene => scene.session.Tidy scene.events) ?_ ?_
  · exact fun _ _ _ _ _ _ =>
      ⟨Draft.clean_empty, List.forall_mem_nil _, fun _ _ _ hstage => nomatch hstage⟩
  · intro scene scene' _ hbefore hstep
    cases hstep with
    | moved hmove => exact hbefore.doing (Session.doing_of_step hmove)
    | disturbed _ _ | clock _ | asked _ | askedAll | fed _ | rescripted _ =>
        exact ⟨hbefore.draft, hbefore.drawn, hbefore.pens⟩

/-! ## Submitting -/

/-- What is said in a room is what was to be said. -/
theorem Room.op_of_said {room : Room} {op : Op} {id : ParticipantId}
    {fallback text line : String} (h : .said id fallback text line ∈ (room.perform op).events) :
    op = .say id fallback text := by
  have hround : ∀ {event order source? told},
      .said id fallback text line ∈ event :: deliveries order source? told →
      event = .said id fallback text line := by
    intro event order source? told hmem
    refine ((List.mem_cons.1 hmem).resolve_right fun hrest => ?_).symm
    rcases mem_deliveries hrest with ⟨_, heq⟩ | ⟨_, _, heq⟩ <;> exact nomatch heq
  cases op with
  | receive _ | drain _ | hangUp _ => exact absurd h List.not_mem_nil
  | join name => exact nomatch hround h
  | say id' fallback' text' =>
      obtain ⟨rfl, rfl, rfl, -⟩ := Event.said.inj (hround h)
      rfl
  | leave other =>
      have hleave : .said id fallback text line ∈ (room.leave other).events := h
      cases hmember : room.member? other with
      | none => simp [leave_of_not_member hmember] at hleave
      | some member =>
          rw [leave_of_member hmember] at hleave
          exact nomatch hround hleave

/-- A session says the line that is being typed, without the blanks around it, and only if something
    is left of it. -/
theorem Session.Doing.submitted {session : Session} {room : Room} {task : Task} {move : Move}
    (h : session.Doing room task move) {id : ParticipantId} {fallback text line : String}
    (hsaid : .room (.said id fallback text line) ∈ move.events) :
    task = .keys ∧ text = Text.trim session.draft.text ∧ text.isEmpty = false := by
  have hroom : ∀ {events : List Room.Event},
      Event.room (.said id fallback text line) ∈ events.map .room →
      .said id fallback text line ∈ events := by
    intro events hmem
    obtain ⟨event, hevent, heq⟩ := List.mem_map.1 hmem
    exact Event.room.inj heq ▸ hevent
  cases h with
  | joined => exact nomatch @Room.op_of_said room (.join session.claimed) _ _ _ _ (hroom hsaid)
  | @left ticket => exact nomatch @Room.op_of_said room (.leave ticket.id) _ _ _ _ (hroom hsaid)
  | @entered ticket relay reader turn hstage hread hblank hturn =>
      subst hturn
      obtain ⟨-, -, rfl⟩ := Room.Op.say.inj (@Room.op_of_said room
        (.say ticket.id ticket.name (Text.trim session.draft.text)) _ _ _ _ (hroom hsaid))
      exact ⟨rfl, rfl, hblank⟩
  | @closed ticket relay reader turn hstage hread hblank hturn =>
      subst hturn
      have hthis := (List.mem_cons.1 hsaid).resolve_left nofun
      obtain ⟨-, -, rfl⟩ := Room.Op.say.inj (@Room.op_of_said room
        (.say ticket.id ticket.name (Text.trim session.draft.text)) _ _ _ _ (hroom hthis))
      exact ⟨rfl, rfl, hblank⟩
  | ended =>
      cases hshut : session.screen.shutdown.1 <;> simp [hshut] at hsaid
  | answered | deserted | turnedAway | keysCalled | keysHeldUp | keysDrew | keysFailed | opened | ready
  | tookLeave | readOn | enteredBlank | acknowledged | trimmed | appended | ignored | closedBlank
  | readFailed | fetched | relayEnded | relayCalled | relayHeldUp | relayDrew | relayFailed
  | relayReady => simp at hsaid

end LineChat
