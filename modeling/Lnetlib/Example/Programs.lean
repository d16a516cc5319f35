import Lnetlib.Connection.Duplex
import Lnetlib.Stream.Strings

/-!
# The example programs

`example/server/main.cpp` and `example/client/main.cpp` on one connection. A thread is the calls that it still
has to make on the connection, so the calls of different threads and the steps of the sockets come in any
order; as in `Duplex`, `create_stream` and the body handler do not overlap. A key of the server that does
something is pressed while the connection is in `connections()`, where the client is still connected. The
connections of a server share nothing but its screen.

What the programs print besides the messages they receive and the options of the encryption are left out, and
so is the end of a program.
-/

namespace Lnetlib

open Bytes Transition

namespace Example

/-- `enum class Command` of both programs. -/
inductive Command where
  | hello
  | goodbye
  | quit
  | sendFile
  | message
  deriving DecidableEq, Repr

namespace Command

/-- An enumeration class is an `int`. -/
def type : CommandType := .integral 32 true (by decide)

def value : Command → type.Value
  | hello => (0 : BitVec 32)
  | goodbye => (1 : BitVec 32)
  | quit => (2 : BitVec 32)
  | sendFile => (3 : BitVec 32)
  | message => (4 : BitVec 32)

instance : DecidableEq type.Value := inferInstanceAs (DecidableEq (BitVec 32))

/-- The `case` of a `switch`. -/
def ofValue (v : type.Value) : Option Command :=
  [hello, goodbye, quit, sendFile, message].find? fun c => decide (c.value = v)

/-- The command as it is sent. -/
def code (c : Command) : UInt64 := type.toUInt64 c.value

end Command

/-- The characters of a literal. -/
def cchars (s : String) : List CChar := s.toList.map fun c => UInt8.ofNat c.toNat

def ready : List CChar := cchars "ready\nsteady\ngo!\n"

def imServer : List CChar := cchars "I'm server!\n"

/-- A file that the server could open, under the name that was typed. -/
structure File where
  name : Text UInt64
  bytes : Chunk CChar UInt64

/-- What a program has to say: for a key, or for a package. -/
inductive Said where
  | quit
  | message
  /-- The response to the `j`-th stream that came in. -/
  | answer (j : Nat)
  | goodbye
  | hello
  | file (f : File)

/-- A call on the connection or on the stream in hand. -/
inductive Call where
  | create (command : Command) (callback : Bool)
  | respond (j : Nat)
  | writeString (data : List CChar)
  | writeDataChunk (data : List CChar)
  | send
  | close

/-- What the program does to say it. The streams of the keys of the server are sent by their destructor. -/
def Said.calls : Said → List Call
  | quit => [.create .quit false, .send]
  | message => [.create .message true, .send]
  | answer j => [.respond j, .writeString ready, .send]
  | goodbye => [.create .goodbye false, .send, .close]
  | hello => [.create .hello false, .writeString imServer, .send]
  | file f => [.create .sendFile false, .writeString f.name.chars, .writeDataChunk f.bytes.data, .send]

/-- The loop of `main` of the client. -/
def clientKey : Char → Option Said
  | 'q' => some .quit
  | 'm' => some .message
  | _ => none

/-- The loop of `main` of the server, for a connection in `connections()`; `file` is what is found under the
    name that is typed. -/
def serverKey (file : Option File) : Char → Option Said
  | 'h' => some .hello
  | 'f' => file.map .file
  | _ => none

/-- The slot of `received` of the server, for the `j`-th stream that came in. -/
def serverSlot (j : Nat) (stream : Istream) : Option Said :=
  match Command.ofValue (stream.commandAs Command.type) with
  | some .message => some (.answer j)
  | some .quit => some .goodbye
  | _ => none

/-- The threads that use the connection: both `main` functions, and the slot of the server. -/
inductive Role where
  | client
  | operator
  | slot
  deriving DecidableEq, Repr

def Role.side : Role → Side
  | client => .left
  | operator | slot => .right

namespace Call

/-- What a writer appends. -/
def bytes (o : ByteOrder) : Call → List UInt8
  | writeString data => (Ostream.writeString o UInt64 data { buffer := [], sended := false, uid := 0 }).buffer
  | writeDataChunk data =>
    (Ostream.writeDataChunk o UInt64 data { buffer := [], sended := false, uid := 0 }).buffer
  | create _ _ | respond _ | send | close => []

/-- The call gives the program a new stream. -/
def opens : Call → Bool
  | create _ _ | respond _ => true
  | writeString _ | writeDataChunk _ | send | close => false

def act (o : ByteOrder) (x : Side) (stream : Nat) (shutdown : ErrorCode) : Call → DuplexAct
  | create command callback => .createStream x Command.type command.value callback
  | respond j => .createResponse x j
  | writeString data => .write x stream (bytes o (.writeString data))
  | writeDataChunk data => .write x stream (bytes o (.writeDataChunk data))
  | send => .send x stream
  | close => .connection x (.close shutdown)

end Call

/-- What a thread still has to do, and the stream in its hands. -/
structure Program where
  calls : List Call
  stream : Nat

end Example

open Example

/-- Both programs, and the history: what each thread was to say, and what each side has sent. -/
structure Example where
  duplex : Duplex
  program : Role → Program
  told : Role → List Said
  said : Side → List (Role × Said)

/-- What happens. -/
inductive ExampleAct where
  | clientKey (key : Char)
  | serverKey (key : Char) (file : Option File)
  /-- The next call of a thread; `shutdown` is the result of the shutdown of an open socket. -/
  | call (r : Role) (shutdown : ErrorCode)
  | transmit (x : Side) (i n : Nat) (junk : Nat → UInt8)
  /-- Anything else on the connection of `x`. -/
  | connection (x : Side) (a : ReadingAct Nat)

namespace Example

variable (o : ByteOrder)

/-- Both programs just connected. -/
def init : Example :=
  { duplex := Duplex.init
    program := fun _ => { calls := [], stream := 0 }
    told := fun _ => []
    said := fun _ => [] }

/-- A thread with nothing left to do goes on with this. -/
def tell (r : Role) (w : Said) (s : Example) : Option Example :=
  if (s.program r).calls.isEmpty then
    some { s with
      program := Function.update s.program r { s.program r with calls := w.calls }
      told := Function.update s.told r (s.told r ++ [w]) }
  else none

/-- The user code of the server that a step of its connection runs. -/
def runSlot (r : Reading Nat) (j : Nat) (a : ReadingAct Nat) (s : Example) : Option Example :=
  match Duplex.ran o r a with
  | (none, stream) :: _ =>
    match serverSlot j stream with
    | some w => s.tell .slot w
    | none => some s
  | _ => some s

/-- The slot of the server returns when it has made its calls, and only its calls close a connection. -/
def Allows (s : Example) : Side → ReadingAct Nat → Bool
  | .right, .slotReturn _ | .right, .slotThrow _ => (s.program .slot).calls.isEmpty
  | _, .close _ => false
  | _, _ => true

/-- One step. -/
def step (s : Example) : ExampleAct → Option Example
  | .clientKey key =>
    match clientKey key with
    | some w => s.tell .client w
    | none => some s
  | .serverKey key file =>
    match serverKey file key with
    | some w => s.tell .operator w
    | none => some s
  | .call r shutdown =>
    match s.program r with
    | { calls := c :: calls, stream := stream } =>
      (s.duplex.step o (c.act o r.side stream shutdown)).map fun duplex =>
        { s with
          duplex := duplex
          program := Function.update s.program r
            { calls := calls
              stream := if c.opens then (s.duplex.endpoint r.side).streams.length else stream }
          said := if c matches .send then
              Function.update s.said r.side
                (s.said r.side ++ (s.told r).getLast?.toList.map fun w => (r, w))
            else s.said }
    | _ => none
  | .transmit x i n junk =>
    (s.duplex.step o (.transmit x i n junk)).map fun duplex => { s with duplex := duplex }
  | .connection x a =>
    if s.Allows x a then
      (s.duplex.step o (.connection x a)).bind fun duplex =>
        match x with
        | .left => some { s with duplex := duplex }
        | .right => runSlot o (s.duplex.endpoint .right).reading (s.duplex.endpoint .right).incoming.length a
            { s with duplex := duplex }
    else none

/-! ## The screen of the client -/

/-- What the client prints of a message, or writes to a file. -/
inductive Line where
  | callbackMessage (msg : List CChar)
  | hello (msg : List CChar)
  | goodbye
  | file (filename bytes : List CChar)
  /-- A read of the slot does not return. -/
  | fault (e : ReadFault)
  deriving DecidableEq

/-- The slot of `received` of the client, with memory for what it reads; `behind` is what the memory behind an
    array on the stack holds. -/
def clientSlot (behind : List CChar) (stream : Istream) : List Line :=
  match Command.ofValue (stream.commandAs Command.type) with
  | some .hello =>
    match stream.readString o (.ample behind) UInt64 with
    | .ok (msg, _) => [.hello msg]
    | .error e => [.fault e]
  | some .goodbye => [.goodbye]
  | some .sendFile =>
    match stream.readString o (.ample behind) UInt64 with
    | .ok (filename, stream) =>
      match stream.readDataChunk o (.ample behind) CChar UInt64 with
      | .ok (bytes, _) => [.file filename bytes]
      | .error e => [.fault (.exception e)]
    | .error e => [.fault e]
  | _ => []

/-- The callback of the client. -/
def clientCallback (behind : List CChar) (stream : Istream) : List Line :=
  match stream.readString o (.ample behind) UInt64 with
  | .ok (msg, _) => [.callbackMessage msg]
  | .error e => [.fault e]

/-- What the client shows of a stream, given to a callback or to `received`. -/
def lines (behind : List CChar) : Istream × Option Nat → List Line
  | (stream, some _) => clientCallback o behind stream
  | (stream, none) => clientSlot o behind stream

/-- All that the client has shown. -/
def screen (behind : Nat → List CChar) (e : Endpoint) : List Line :=
  (e.incoming.zip e.handled).zipIdx.flatMap fun r => lines o (behind r.2) r.1

/-- What the client shows when it is told this and the right slot or callback gets it. -/
def Said.shown : Said → List Line
  | answer _ => [.callbackMessage ready]
  | goodbye => [.goodbye]
  | hello => [.hello imServer]
  -- `read_string` stops at a zero
  | file f => [.file (f.name.chars.takeWhile (· != 0)) f.bytes.data]
  | quit | message => []

/-- What the client shows in return for a key. -/
def Said.reply : Said → List Line
  | message => [.callbackMessage ready]
  | quit => [.goodbye]
  | answer _ | goodbye | hello | file _ => []

end Example

end Lnetlib
