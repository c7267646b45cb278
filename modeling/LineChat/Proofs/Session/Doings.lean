import LineChat.Server.Basic

set_option autoImplicit false

/-! # Every move of a session

`Session.Doing` lists what the three tasks of a session can do, one constructor for each kind of
move, with what must be the case for it and what the session is afterwards. `Session.step` makes no
other moves (`doing_of_step`), so whatever holds of every session is shown once for each
constructor. -/

namespace LineChat

/-- The moves that a session can make in a room. -/
inductive Session.Doing (session : Session) (room : Room) : Task → Move → Prop
  -- requests
  | answered {kind : RequestKind} {rest : List RequestKind}
      (hattended : session.requests.attended = true)
      (hpending : session.requests.pending = kind :: rest) :
      Doing session room .requests
        ⟨room,
          { session with
            requests :=
              { session.requests with
                pending := rest
                shellTaken := session.requests.shellTaken || kind == .shell } },
          [.replied kind kind.granted]⟩
  | deserted (hattended : session.requests.attended = true)
      (hpending : session.requests.pending = []) (harriving : session.requests.arriving = false) :
      Doing session room .requests
        ⟨room, { session with requests := { session.requests with attended := false } },
          [.requestsEnded]⟩
  -- the lobby
  | joined (hstage : session.stage = .lobby) (hshell : session.requests.shellTaken = true) :
      Doing session room .keys
        ⟨(room.join session.claimed).room,
          { session with
            stage := .seated (room.join session.claimed).answer
              (.drawing (.ready [.clear]) .openRelay) .absent },
          (room.join session.claimed).events.map .room⟩
  | turnedAway (hstage : session.stage = .lobby) (hshell : session.requests.shellTaken = false)
      (hattended : session.requests.attended = false) :
      Doing session room .keys
        ⟨room, { session with stage := .turnedAway }, [.turnedAway session.claimed]⟩
  -- the key task draws
  | keysCalled {ticket : Ticket} {pen pen' : Pen} {aim : Aim} {relay : Relay}
      (hstage : session.stage = .seated ticket (.drawing pen aim) relay)
      (hpen : pen.step room.online session.draft.text session.screen relay.holds
        = some (.called pen')) :
      Doing session room .keys
        ⟨room, { session with stage := .seated ticket (.drawing pen' aim) relay }, []⟩
  | keysHeldUp {ticket : Ticket} {pen pen' : Pen} {aim : Aim} {relay : Relay} {screen : Screen}
      (hstage : session.stage = .seated ticket (.drawing pen aim) relay)
      (hpen : pen.step room.online session.draft.text session.screen relay.holds
        = some (.heldUp pen' screen)) :
      Doing session room .keys
        ⟨room, { session with screen, stage := .seated ticket (.drawing pen' aim) relay }, []⟩
  | keysDrew {ticket : Ticket} {pen pen' : Pen} {aim : Aim} {relay : Relay} {screen : Screen}
      {draw : Draw}
      (hstage : session.stage = .seated ticket (.drawing pen aim) relay)
      (hpen : pen.step room.online session.draft.text session.screen relay.holds
        = some (.drew draw pen' screen)) :
      Doing session room .keys
        ⟨room,
          { session with
            screen, stage := .seated ticket (.drawing pen' aim) (relay.admitted screen) },
          [.drew .keys draw]⟩
  | keysFailed {ticket : Ticket} {pen : Pen} {aim : Aim} {relay : Relay} {screen : Screen}
      {fault : IoFault}
      (hstage : session.stage = .seated ticket (.drawing pen aim) relay)
      (hpen : pen.step room.online session.draft.text session.screen relay.holds
        = some (.failed fault screen)) :
      Doing session room .keys
        ⟨if aim = .openRelay then room.hangUp ticket.place else room,
          { session with
            screen
            stage := .seated ticket (.leaving (aim.outcomeOnFault fault))
              (relay.admitted screen) },
          [.drawFailed .keys fault]⟩
  | opened {ticket : Ticket} {relay : Relay}
      (hstage : session.stage = .seated ticket (.drawing (.ready []) .openRelay) relay) :
      Doing session room .keys
        ⟨room,
          { session with
            stage := .seated ticket (.drawing (.ready (KeyLoop.greeting ticket.name)) .readKeys)
              .waiting },
          []⟩
  | ready {ticket : Ticket} {relay : Relay}
      (hstage : session.stage = .seated ticket (.drawing (.ready []) .readKeys) relay) :
      Doing session room .keys
        ⟨room, { session with stage := .seated ticket .reading relay }, []⟩
  | tookLeave {ticket : Ticket} {relay : Relay} {outcome : Outcome}
      (hstage : session.stage = .seated ticket (.drawing (.ready []) (.leave outcome)) relay) :
      Doing session room .keys
        ⟨room, { session with stage := .seated ticket (.leaving outcome) relay }, []⟩
  -- the key task reads
  | readOn {ticket : Ticket} {relay : Relay} {reader : KeyReader}
      (hstage : session.stage = .seated ticket .reading relay)
      (hread : session.reader.step = some (reader, none)) :
      Doing session room .keys
        ⟨room, { session with reader, stage := .seated ticket .reading relay }, []⟩
  | enteredBlank {ticket : Ticket} {relay : Relay} {reader : KeyReader}
      (hstage : session.stage = .seated ticket .reading relay)
      (hread : session.reader.step = some (reader, some (.key .enter)))
      (hblank : (Text.trim session.draft.text).isEmpty = true) :
      Doing session room .keys
        ⟨room, { session with reader, draft := .empty, stage := .seated ticket .prompting relay },
          []⟩
  | entered {ticket : Ticket} {relay : Relay} {reader : KeyReader} {turn : Room.Turn String}
      (hstage : session.stage = .seated ticket .reading relay)
      (hread : session.reader.step = some (reader, some (.key .enter)))
      (hblank : (Text.trim session.draft.text).isEmpty = false)
      (hturn : turn = room.say ticket.id ticket.name (Text.trim session.draft.text)) :
      Doing session room .keys
        ⟨turn.room,
          { session with
            reader, draft := .empty
            stage := .seated ticket (.showing turn.answer .readKeys) relay },
          turn.events.map .room⟩
  | acknowledged {ticket : Ticket} {relay : Relay} {reader : KeyReader} {key : Key}
      {label : String}
      (hstage : session.stage = .seated ticket .reading relay)
      (hread : session.reader.step = some (reader, some (.key key)))
      (hkey : key = .interrupt ∧ label = "^C" ∨ key = .endOfInput ∧ label = "^D") :
      Doing session room .keys
        ⟨room,
          { session with
            reader, draft := .empty
            stage := .seated ticket (.showing label (.leave .well)) relay },
          [.acknowledged label]⟩
  | trimmed {ticket : Ticket} {relay : Relay} {reader : KeyReader}
      (hstage : session.stage = .seated ticket .reading relay)
      (hread : session.reader.step = some (reader, some (.key .backspace))) :
      Doing session room .keys
        ⟨room,
          { session with
            reader, draft := session.draft.trimLast
            stage := .seated ticket .prompting relay },
          []⟩
  | appended {ticket : Ticket} {relay : Relay} {reader : KeyReader} {c : Char}
      (hstage : session.stage = .seated ticket .reading relay)
      (hread : session.reader.step = some (reader, some (.key (.char c)))) :
      Doing session room .keys
        ⟨room,
          { session with
            reader, draft := session.draft.append c, stage := .seated ticket .prompting relay },
          []⟩
  | ignored {ticket : Ticket} {relay : Relay} {reader : KeyReader}
      (hstage : session.stage = .seated ticket .reading relay)
      (hread : session.reader.step = some (reader, some (.key .ignored))) :
      Doing session room .keys
        ⟨room, { session with reader, stage := .seated ticket .reading relay }, []⟩
  | closedBlank {ticket : Ticket} {relay : Relay} {reader : KeyReader}
      (hstage : session.stage = .seated ticket .reading relay)
      (hread : session.reader.step = some (reader, some .closed))
      (hblank : (Text.trim session.draft.text).isEmpty = true) :
      Doing session room .keys
        ⟨room,
          { session with
            reader, draft := .empty, stage := .seated ticket (.leaving .well) relay },
          [.inputClosed ticket.id]⟩
  | closed {ticket : Ticket} {relay : Relay} {reader : KeyReader} {turn : Room.Turn String}
      (hstage : session.stage = .seated ticket .reading relay)
      (hread : session.reader.step = some (reader, some .closed))
      (hblank : (Text.trim session.draft.text).isEmpty = false)
      (hturn : turn = room.say ticket.id ticket.name (Text.trim session.draft.text)) :
      Doing session room .keys
        ⟨turn.room,
          { session with
            reader, draft := .empty
            stage := .seated ticket (.showing turn.answer (.leave .well)) relay },
          .inputClosed ticket.id :: turn.events.map .room⟩
  | readFailed {ticket : Ticket} {relay : Relay} {reader : KeyReader} {fault : IoFault}
      (hstage : session.stage = .seated ticket .reading relay)
      (hread : session.reader.step = some (reader, some (.failed fault))) :
      Doing session room .keys
        ⟨room,
          { session with
            reader
            stage := .seated ticket
              (.showing (Line.readError fault.message) (.leave (.failed (.read fault)))) relay },
          [.readFailed ticket.id fault]⟩
  -- the end
  | left {ticket : Ticket} {relay : Relay} {outcome : Outcome}
      (hstage : session.stage = .seated ticket (.leaving outcome) relay) :
      Doing session room .keys
        ⟨(room.leave ticket.id).room,
          { session with stage := .seated ticket (.draining outcome) relay },
          (room.leave ticket.id).events.map .room⟩
  | ended {ticket : Ticket} {relay : Relay} {outcome : Outcome}
      (hstage : session.stage = .seated ticket (.draining outcome) relay)
      (hover : relay.isOver = true) :
      Doing session room .keys
        ⟨room,
          { session with
            screen := session.screen.shutdown.2
            requests := { session.requests with attended := false }
            stage := .seated ticket (.ended outcome) relay },
          .shutDown :: (session.screen.shutdown.1.map (.shutdownFailed ticket.id)).toList
            ++ [.ended ticket.id outcome]⟩
  -- the relay
  | fetched {ticket : Ticket} {keyLoop : KeyLoop} {room' : Room} {text : String}
      (hstage : session.stage = .seated ticket keyLoop .waiting)
      (hreceive : room.receive ticket.place = (.line text, room')) :
      Doing session room .relay
        ⟨room',
          { session with
            stage := .seated ticket keyLoop (.drawing (.ready [.line text, .prompt])) },
          []⟩
  | relayEnded {ticket : Ticket} {keyLoop : KeyLoop} {room' : Room} {receipt : Receipt}
      (hstage : session.stage = .seated ticket keyLoop .waiting)
      (hreceive : room.receive ticket.place = (receipt, room'))
      (hreceipt : receipt = .closed ∨ receipt = .dropped) :
      Doing session room .relay
        ⟨room', { session with stage := .seated ticket keyLoop .finished },
          [.relayFinished ticket.id]⟩
  | relayCalled {ticket : Ticket} {keyLoop : KeyLoop} {pen pen' : Pen}
      (hstage : session.stage = .seated ticket keyLoop (.drawing pen))
      (hpen : pen.step room.online session.draft.text session.screen keyLoop.holds
        = some (.called pen')) :
      Doing session room .relay
        ⟨room, { session with stage := .seated ticket keyLoop (.drawing pen') }, []⟩
  | relayHeldUp {ticket : Ticket} {keyLoop : KeyLoop} {pen pen' : Pen} {screen : Screen}
      (hstage : session.stage = .seated ticket keyLoop (.drawing pen))
      (hpen : pen.step room.online session.draft.text session.screen keyLoop.holds
        = some (.heldUp pen' screen)) :
      Doing session room .relay
        ⟨room, { session with screen, stage := .seated ticket keyLoop (.drawing pen') }, []⟩
  | relayDrew {ticket : Ticket} {keyLoop : KeyLoop} {pen pen' : Pen} {screen : Screen}
      {draw : Draw}
      (hstage : session.stage = .seated ticket keyLoop (.drawing pen))
      (hpen : pen.step room.online session.draft.text session.screen keyLoop.holds
        = some (.drew draw pen' screen)) :
      Doing session room .relay
        ⟨room,
          { session with
            screen, stage := .seated ticket (keyLoop.admitted screen) (.drawing pen') },
          [.drew .relay draw]⟩
  | relayFailed {ticket : Ticket} {keyLoop : KeyLoop} {pen : Pen} {screen : Screen}
      {fault : IoFault}
      (hstage : session.stage = .seated ticket keyLoop (.drawing pen))
      (hpen : pen.step room.online session.draft.text session.screen keyLoop.holds
        = some (.failed fault screen)) :
      Doing session room .relay
        ⟨room.hangUp ticket.place,
          { session with
            screen, stage := .seated ticket (keyLoop.admitted screen) .finished },
          [.drawFailed .relay fault, .relayStopped ticket.id (.io fault),
            .relayFinished ticket.id]⟩
  | relayReady {ticket : Ticket} {keyLoop : KeyLoop}
      (hstage : session.stage = .seated ticket keyLoop (.drawing (.ready []))) :
      Doing session room .relay
        ⟨room, { session with stage := .seated ticket keyLoop .waiting }, []⟩

namespace Pen

variable {online : Nat} {draft : String} {screen : Screen} {busy : Bool} {pen : Pen}

/-- Only a pen with nothing to draw is through. -/
theorem eq_ready_of_finished (h : pen.step online draft screen busy = some .finished) :
    pen = .ready [] := by
  cases pen with
  | queued draw later => simp [step] at h
  | ready calls => cases calls <;> simp [step] at h ⊢
  | writing draw strokes later =>
      simp only [step] at h
      split at h
      · simp at h
      · split at h <;> simp at h

end Pen

namespace Session

variable {session : Session} {room : Room} {move : Move}

theorem doing_of_requestStep (h : session.requestStep room = some move) :
    session.Doing room .requests move := by
  obtain ⟨⟨requests, event⟩, hstep, rfl⟩ := Option.map_eq_some_iff.1 h
  obtain ⟨claimed, ⟨pending, arriving, attended, shellTaken⟩, reader, draft, screen, stage⟩ := session
  cases attended with
  | false => simp [RequestQueue.step] at hstep
  | true =>
      cases pending with
      | cons kind rest =>
          obtain ⟨rfl, rfl⟩ := Prod.mk.inj (Option.some.inj hstep)
          exact .answered rfl rfl
      | nil =>
          cases arriving with
          | true => simp [RequestQueue.step] at hstep
          | false =>
              obtain ⟨rfl, rfl⟩ := Prod.mk.inj (Option.some.inj hstep)
              exact .deserted rfl rfl rfl

theorem doing_of_lobbyStep (hstage : session.stage = .lobby)
    (h : session.lobbyStep room = some move) : session.Doing room .keys move := by
  unfold lobbyStep at h
  cases hshell : session.requests.shellTaken with
  | true =>
      simp only [hshell, if_true, Option.some.injEq] at h
      subst h
      exact .joined hstage hshell
  | false =>
      cases hattended : session.requests.attended with
      | true => simp [hshell, hattended] at h
      | false =>
          simp only [hshell, hattended, Bool.false_eq_true, if_false, Option.some.injEq] at h
          subst h
          exact .turnedAway hstage hshell hattended

theorem doing_of_drawKeys {ticket : Ticket} {pen : Pen} {aim : Aim} {relay : Relay}
    (hstage : session.stage = .seated ticket (.drawing pen aim) relay)
    (h : session.drawKeys room ticket relay pen aim = some move) :
    session.Doing room .keys move := by
  obtain ⟨stroke, hpen, rfl⟩ := Option.map_eq_some_iff.1 h
  cases stroke with
  | called pen' => exact .keysCalled hstage hpen
  | heldUp pen' screen => exact .keysHeldUp hstage hpen
  | drew draw pen' screen => exact .keysDrew hstage hpen
  | failed fault screen => exact .keysFailed hstage hpen
  | finished =>
      rw [Pen.eq_ready_of_finished hpen] at hstage
      cases aim with
      | openRelay => exact .opened hstage
      | readKeys => exact .ready hstage
      | leave outcome => exact .tookLeave hstage

theorem doing_of_readKeys {ticket : Ticket} {relay : Relay}
    (hstage : session.stage = .seated ticket .reading relay)
    (h : session.readKeys room ticket relay = some move) : session.Doing room .keys move := by
  obtain ⟨⟨reader, reading?⟩, hread, rfl⟩ := Option.map_eq_some_iff.1 h
  rcases reading? with _ | key | _ | fault
  · exact .readOn hstage hread
  · cases key with
    | enter =>
        simp only [take, press, submit]
        cases hblank : (Text.trim session.draft.text).isEmpty with
        | true => exact .enteredBlank hstage hread hblank
        | false => exact .entered hstage hread hblank rfl
    | interrupt => exact .acknowledged hstage hread (Or.inl ⟨rfl, rfl⟩)
    | endOfInput => exact .acknowledged hstage hread (Or.inr ⟨rfl, rfl⟩)
    | backspace => exact .trimmed hstage hread
    | char c => exact .appended hstage hread
    | ignored => exact .ignored hstage hread
  · simp only [take, submit]
    cases hblank : (Text.trim session.draft.text).isEmpty with
    | true => exact .closedBlank hstage hread hblank
    | false => exact .closed hstage hread hblank rfl
  · exact .readFailed hstage hread

theorem doing_of_keyStep (h : session.keyStep room = some move) :
    session.Doing room .keys move := by
  unfold keyStep at h
  cases hstage : session.stage with
  | lobby =>
      simp only [hstage] at h
      exact doing_of_lobbyStep hstage h
  | turnedAway => simp [hstage] at h
  | seated ticket keyLoop relay =>
      simp only [hstage] at h
      cases keyLoop with
      | drawing pen aim => exact doing_of_drawKeys hstage h
      | reading => exact doing_of_readKeys hstage h
      | leaving outcome =>
          simp only [Option.some.injEq] at h
          subst h
          exact .left hstage
      | draining outcome =>
          cases hover : relay.isOver with
          | false => simp [hover] at h
          | true =>
              simp only [hover, if_true, Option.some.injEq] at h
              subst h
              exact .ended hstage hover
      | ended outcome => simp at h

theorem doing_of_relayStep (h : session.relayStep room = some move) :
    session.Doing room .relay move := by
  unfold relayStep at h
  cases hstage : session.stage with
  | lobby | turnedAway => simp [hstage] at h
  | seated ticket keyLoop relay =>
      simp only [hstage] at h
      cases relay with
      | absent | finished => simp at h
      | waiting =>
          simp only [fetchLine] at h
          rcases hreceive : room.receive ticket.place with ⟨receipt, room'⟩
          cases receipt with
          | line text =>
              simp only [hreceive, Option.some.injEq] at h
              subst h
              exact .fetched hstage hreceive
          | waiting => simp [hreceive] at h
          | closed =>
              simp only [hreceive, Option.some.injEq] at h
              subst h
              exact .relayEnded hstage hreceive (Or.inl rfl)
          | dropped =>
              simp only [hreceive, Option.some.injEq] at h
              subst h
              exact .relayEnded hstage hreceive (Or.inr rfl)
      | drawing pen =>
          obtain ⟨stroke, hpen, rfl⟩ := Option.map_eq_some_iff.1 h
          cases stroke with
          | called pen' => exact .relayCalled hstage hpen
          | heldUp pen' screen => exact .relayHeldUp hstage hpen
          | drew draw pen' screen => exact .relayDrew hstage hpen
          | failed fault screen => exact .relayFailed hstage hpen
          | finished =>
              rw [Pen.eq_ready_of_finished hpen] at hstage
              exact .relayReady hstage

/-- A session makes the moves that are listed, and no others. -/
theorem doing_of_step {task : Task} (h : session.step room task = some move) :
    session.Doing room task move := by
  cases task with
  | requests => exact doing_of_requestStep h
  | keys => exact doing_of_keyStep h
  | relay => exact doing_of_relayStep h

end Session

end LineChat
