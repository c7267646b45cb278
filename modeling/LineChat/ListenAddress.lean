
set_option autoImplicit false

/-! # Addresses to listen on

The server is told where to listen by the name or number of a host, a colon, and a number of
sixteen bits. Only the last colon counts, because the number of a host may hold colons itself. An
address that cannot be read, or that is taken, ends the program. -/

namespace LineChat

/-- Where to listen: a host, and which of its TCP ports. -/
structure ListenAddress where
  host : String
  portNumber : UInt16
  deriving DecidableEq, Repr

/-- Why the server cannot listen. -/
inductive ListenFault
  /-- There is no colon behind the host. -/
  | invalidAddress
  /-- What is behind the last colon is no number of sixteen bits. -/
  | invalidPort
  /-- Somebody else listens there. -/
  | addressInUse
  deriving DecidableEq, Repr

namespace ListenFault

/-- What is known about a fault. -/
def details : ListenFault → String
  | invalidAddress => "Error \x7b kind: InvalidInput, message: \"invalid socket address\" \x7d"
  | invalidPort => "Error \x7b kind: InvalidInput, message: \"invalid port value\" \x7d"
  | addressInUse =>
    "Os \x7b code: 98, kind: AddrInUse, message: \"Address already in use\" \x7d"

/-- What the server says when it gives up. -/
def report (fault : ListenFault) : String :=
  "Error: Io(" ++ fault.details ++ ")"

/-- The exit code of a server that gave up. -/
def exitCode : UInt32 := 1

end ListenFault

namespace ListenAddress

/-- Where the server listens if it is told nothing. -/
def standard : String := "127.0.0.1:2222"

/-- The value of a decimal digit. -/
def digit? (c : Char) : Option Nat :=
  if '0' ≤ c ∧ c ≤ '9' then some (c.toNat - '0'.toNat) else none

/-- Reads digits behind those that made up a number. -/
def readDigits : Nat → List Char → Option Nat
  | n, [] => some n
  | n, c :: rest => (digit? c).bind fun d => readDigits (10 * n + d) rest

/-- Reads a number of sixteen bits: decimal digits, one at least, perhaps with a plus sign in
    front. -/
def readNumber (cs : List Char) : Option UInt16 :=
  let digits := match cs with
    | '+' :: rest => rest
    | cs => cs
  if digits.isEmpty then none
  else (readDigits 0 digits).bind fun n => if n < UInt16.size then some n.toUInt16 else none

/-- Reads an address. -/
def parse (text : String) : Except ListenFault ListenAddress :=
  let reversed := text.toList.reverse
  match reversed.dropWhile (· != ':') with
  | [] => .error .invalidAddress
  | _ :: host =>
    match readNumber (reversed.takeWhile (· != ':')).reverse with
    | none => .error .invalidPort
    | some number => .ok ⟨String.ofList host.reverse, number⟩

/-- The address that the server listens on if it is told nothing can be read. -/
example : parse standard = .ok ⟨"127.0.0.1", 2222⟩ := by cbv

/-- Neither a host alone nor a number that is too large will do. -/
example : parse "127.0.0.1" = .error .invalidAddress
    ∧ parse "127.0.0.1:65536" = .error .invalidPort := by cbv

end ListenAddress

end LineChat
