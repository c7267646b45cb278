import LineChat.FrontEnd
import LineChat.ListenAddress
import Std.Async.DNS
import Std.Async.Signal
import Std.Async.TCP
import Std.Sync.Channel
import Std.Time.Zoned

set_option autoImplicit false

/-! # The program

`main` listens on the address that it is given and serves a chat room there until it is told to
stop. Everything that happens goes through one channel: somebody connects, bytes arrive, bytes are
on their way, a signal comes. The loop takes one after the other, lets the server react, and hands
over what the sessions have written. -/

namespace LineChat.Daemon

open Std.Async
open Std.Net

/-- What the loop is told. -/
inductive Happening
  | connected (client : TCP.Socket.Client)
  | stimulus (stimulus : Server.Stimulus)
  | signal (name : String)

/-- The channel that everything goes through. -/
abbrev Inbox := Std.CloseableChannel Happening

/-- Tells the loop something. -/
def tell (inbox : Inbox) (happening : Happening) : BaseIO Unit :=
  discard (inbox.send happening)

/-- Writes a line of the log, if it matters. -/
def log (line : LogLine) : IO Unit :=
  unless line.level = .debug do
    IO.println line.render

/-- A failure of the system, as a session knows it. -/
def faultOf (error : IO.Error) : IoFault :=
  let kind : IoKind := match error with
    | .resourceVanished .. => .connectionReset
    | .timeExpired .. => .timedOut
    | _ => .other
  ⟨kind, error.toString⟩

/-- The time of day, at this place if it is known. -/
def now : IO DateTime := do
  let time ← try Std.Time.PlainDateTime.now catch _ => do
    let seconds := (← Std.Time.Timestamp.now).toSecondsSinceUnixEpoch
    pure (Std.Time.PlainDateTime.ofWallTime (.ofSeconds seconds))
  return {
    year := time.date.year
    month := time.date.month.val.toNat
    day := time.date.day.val.toNat
    hour := time.time.hour.val.toNat
    minute := time.time.minute.val.toNat
    second := time.time.second.val.toNat
    nanosecond := time.time.nanosecond.val.toNat }

/-! ## Connections -/

/-- What a session may write before it has to wait for the connection. -/
def ration : Script :=
  .ration 1024

/-- Reads from a connection until it ends. -/
partial def readFrom (inbox : Inbox) (session : Nat) (client : TCP.Socket.Client) :
    Async Unit := do
  let event ← try
      match ← client.recv? Inlet.bufferSize.toUInt64 with
      | some bytes => pure (ReadEvent.data bytes.toList)
      | none => pure ReadEvent.close
    catch error => pure (ReadEvent.error (faultOf error))
  tell inbox (.stimulus (.feed session event))
  if let .data _ := event then
    readFrom inbox session client

/-- Sends bytes to a connection, and lets the session go on when they are on their way. -/
def sendTo (inbox : Inbox) (session : Nat) (client : TCP.Socket.Client) (bytes : Array UInt8) :
    Async Unit := do
  let script ← try
      client.send ⟨bytes⟩
      pure ration
    catch error => pure (Script.broken (faultOf error))
  tell inbox (.stimulus (.rescript session script))

/-- Closes a connection for writing, behind everything that was sent. -/
def close (client : TCP.Socket.Client) : Async Unit := do
  try client.shutdown catch _ => pure ()

/-- Accepts connections for as long as the program runs. -/
partial def acceptFrom (inbox : Inbox) (listener : TCP.Socket.Server) : Async Unit := do
  try
    let client ← listener.accept
    client.noDelay
    tell inbox (.connected client)
  catch error => log ⟨.warn, "Failed to accept connection: " ++ error.toString⟩
  acceptFrom inbox listener

/-- Waits for a signal. -/
def awaitSignal (inbox : Inbox) (signal : Signal) (name : String) : IO Unit := do
  let waiter ← Signal.Waiter.mk signal false
  let received ← waiter.wait
  discard <| received.mapIO fun _ => tell inbox (.signal name)

/-! ## The loop -/

/-- Lets the server react to what happens, until a signal comes. -/
partial def loop (inbox : Inbox) (server : Server) (clients : Array TCP.Socket.Client) :
    IO Unit := do
  match ← inbox.sync.recv with
  | none => pure ()
  | some (.signal name) =>
    log ⟨.info, "Received " ++ name⟩
    log ⟨.info, "Shutting down"⟩
  | some (.connected client) =>
    log ⟨.info, "New connection"⟩
    discard (readFrom inbox clients.size client).toIO
    proceed (.plain [] ration) (clients.push client)
  | some (.stimulus stimulus) => proceed stimulus clients
where
  proceed (stimulus : Server.Stimulus) (clients : Array TCP.Socket.Client) : IO Unit := do
    let server := (server.atTime (← now)).react stimulus
    for line in server.logLines do
      log line
    for (session, bytes) in server.outputs do
      if let some client := clients[session]? then
        discard (sendTo inbox session client bytes).toIO
    for session in server.shutDown do
      if let some client := clients[session]? then
        discard (close client).toIO
    loop inbox server.relieved clients

/-! ## Starting -/

/-- The address of a host that is written as a number or a name. -/
def resolve (address : ListenAddress) : Async SocketAddress := do
  let bare := ((address.host.dropPrefix '[').dropSuffix ']').toString
  match IPv4Addr.ofString address.host, IPv6Addr.ofString bare with
  | some host, _ => return .v4 ⟨host, address.portNumber⟩
  | none, some host => return .v6 ⟨host, address.portNumber⟩
  | none, none =>
    let found : Array IPAddr ← DNS.getAddrInfo address.host (toString address.portNumber)
    match found[0]? with
    | some (IPAddr.v4 host) => return .v4 ⟨host, address.portNumber⟩
    | some (IPAddr.v6 host) => return .v6 ⟨host, address.portNumber⟩
    | none => throw (IO.userError "no addresses to listen on")

/-- What the program says when the system does not let it listen. -/
def refusal (error : IO.Error) : String :=
  match error with
  | .resourceBusy .. => ListenFault.addressInUse.report
  | _ => "Error: Io(" ++ error.toString ++ ")"

/-- Listens on an address and serves the room. -/
def run (address : ListenAddress) (shown : String) : IO Unit := do
  let listener ← TCP.Socket.Server.mk
  listener.bind (← (resolve address).block)
  listener.listen 1024
  log ⟨.info, "Chat server listening on " ++ shown⟩
  let inbox : Inbox ← Std.CloseableChannel.new
  awaitSignal inbox .sigint "SIGINT"
  awaitSignal inbox .sigterm "SIGTERM"
  discard (acceptFrom inbox listener).toIO
  let generator := mkStdGen (← IO.rand 0 (1 <<< 31))
  loop inbox (.ofRoom (.ordinary (← now).render generator)) #[]

end LineChat.Daemon

/-- Serves a chat room on the address that is the first argument. -/
def main (arguments : List String) : IO UInt32 := do
  let shown := arguments.headD LineChat.ListenAddress.standard
  match LineChat.ListenAddress.parse shown with
  | .error fault =>
    IO.eprintln fault.report
    return LineChat.ListenFault.exitCode
  | .ok address =>
    try
      LineChat.Daemon.run address shown
      return 0
    catch error =>
      IO.eprintln (LineChat.Daemon.refusal error)
      return LineChat.ListenFault.exitCode
