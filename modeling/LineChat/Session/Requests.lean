import LineChat.Session.Basic

set_option autoImplicit false

/-! # Answering requests

Requests are answered one by one in the order of arrival, for as long as the session lasts. When
they end, nobody attends to them any more. -/

namespace LineChat

namespace RequestQueue

/-- Adds a request, if more may come and somebody attends to them; and whether that is so. -/
def push (queue : RequestQueue) (kind : RequestKind) : Bool × RequestQueue :=
  if queue.arriving && queue.attended then
    (true, { queue with pending := queue.pending ++ [kind] })
  else (false, queue)

/-- No more will come. -/
def close (queue : RequestQueue) : RequestQueue :=
  { queue with arriving := false }

/-- Answers the oldest request, or notices that there will be none. Nothing happens while more
    may come, nor when nobody attends to them any more. -/
def step (queue : RequestQueue) : Option (RequestQueue × Event) :=
  if !queue.attended then none
  else match queue.pending with
    | kind :: rest =>
      some ({ queue with pending := rest, shellTaken := queue.shellTaken || kind == .shell },
        .replied kind kind.granted)
    | [] =>
      if queue.arriving then none else some ({ queue with attended := false }, .requestsEnded)

/-- How many steps are left until more requests arrive. -/
def effort (queue : RequestQueue) : Nat :=
  queue.pending.length + if queue.attended then 1 else 0

end RequestQueue

namespace Session

/-- What the task that answers requests does next. -/
def requestStep (session : Session) (room : Room) : Option Move :=
  session.requests.step.map fun (requests, event) =>
    { room, session := { session with requests }, events := [event] }

end Session

end LineChat
