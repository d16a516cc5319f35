import Lnetlib.Stream.Istream
import Mathlib.Logic.Function.Basic

/-!
# `connection`: the members as functions on its state

The state of a connection with its socket, and one function for each member of `connection`. A signal
emission or the call of a response callback is returned as an `Emission`; the user code it runs is left
to the systems built on top. A member that goes on after such a call is split there:
`readPackageBodyHandler` ends with the emission and says whether `waitPackage` follows once the slot has
returned, and `writeHandlerLocked` is the part of the write handler that holds `_mutex`.

The socket keeps the operations that were started and whose completion handler has not been invoked,
an operation with a `result` having completed already. Closing the socket completes those in progress
with `operation_aborted`, and an operation started on a closed socket completes with `bad_descriptor`.
-/

namespace Lnetlib

open Bytes

/-- `asio::error_code`: its `value()` and `message()`. -/
structure ErrorCode where
  value : Int
  message : String
  deriving DecidableEq, Repr

namespace ErrorCode

def success : ErrorCode := ⟨0, "Success"⟩

/-- `asio::error::operation_aborted`. -/
def operationAborted : ErrorCode := ⟨125, "Operation aborted."⟩

/-- `asio::error::bad_descriptor`. -/
def badDescriptor : ErrorCode := ⟨9, "Bad file descriptor"⟩

/-- `asio::error::connection_reset`. -/
def connectionReset : ErrorCode := ⟨104, "Connection reset by peer"⟩

/-- `asio::error::eof`; its value is that of `custom_error::no_such_file_or_directory`. -/
def eof : ErrorCode := ⟨2, "End of file"⟩

/-- `custom_error::ssl_short_read`. -/
def sslShortRead : ErrorCode := ⟨335544539, "short read"⟩

/-- The conversion to `bool`: an error and not success. -/
def isError (err : ErrorCode) : Bool := err.value != 0

end ErrorCode

/-- `connection::package`, with the identity of the shared object. -/
structure Package where
  ptr : Nat
  sizeBuffer : List UInt8
  dataBuffer : List UInt8
  deriving DecidableEq, Repr

/-- The bytes of `*pkg->buffer`, which holds the two buffers one after the other. -/
def Package.bytes (pkg : Package) : List UInt8 := pkg.sizeBuffer ++ pkg.dataBuffer

/-- What is read where `*pkg->buffer` points to: anything in place of the data, where their storage is
    freed. -/
def Package.bytesIn (freed : Bool) (junk : Nat → UInt8) (pkg : Package) : List UInt8 :=
  pkg.sizeBuffer ++ if freed then (List.range pkg.dataBuffer.length).map junk else pkg.dataBuffer

@[simp] theorem Package.bytesIn_false (junk : Nat → UInt8) (pkg : Package) :
    pkg.bytesIn false junk = pkg.bytes := rfl

/-- The completion handlers of reads. -/
inductive ReadHandler where
  | readPackageSizeHandler
  | readPackageBodyHandler
  deriving DecidableEq, Repr

/-- An `async_read` with `transfer_exactly(exactly)`: the bytes it has read so far, and its result once
    it has completed. -/
structure ReadOp where
  handler : ReadHandler
  exactly : Nat
  buffer : List UInt8
  result : Option ErrorCode
  deriving DecidableEq, Repr

/-- An `async_write` of a package, and its result once it has completed. -/
structure WriteOp where
  pkg : Package
  result : Option ErrorCode
  deriving DecidableEq, Repr

/-- The socket of a connection. -/
structure Socket where
  isOpen : Bool
  reads : List ReadOp
  writes : List WriteOp

namespace Socket

/-- The result an operation has when it is started. -/
def startResult (sckt : Socket) : Option ErrorCode :=
  if sckt.isOpen then none else some ErrorCode.badDescriptor

/-- `socket::async_read`. -/
def asyncRead (handler : ReadHandler) (exactly : Nat) (sckt : Socket) : Socket :=
  { sckt with reads := sckt.reads ++
      [{ handler := handler, exactly := exactly, buffer := [], result := sckt.startResult }] }

/-- `socket::async_write`. -/
def asyncWrite (pkg : Package) (sckt : Socket) : Socket :=
  { sckt with writes := sckt.writes ++ [{ pkg := pkg, result := sckt.startResult }] }

/-- `socket::close`: a shutdown, which throws when it fails, and then the close. The argument is the
    result of the shutdown of an open socket. -/
def close (shutdown : ErrorCode) (sckt : Socket) : Except ErrorCode Socket :=
  if !sckt.isOpen then .error ErrorCode.badDescriptor
  else if shutdown.isError then .error shutdown
  else .ok
    { isOpen := false
      reads := sckt.reads.map fun op =>
        { op with result := op.result <|> some ErrorCode.operationAborted }
      writes := sckt.writes.map fun op =>
        { op with result := op.result <|> some ErrorCode.operationAborted } }

end Socket

/-- The signals of a connection as they are emitted, and the calls of response callbacks. -/
inductive Emission (κ : Type) where
  | closed
  | error (code : Int) (message : String)
  | received (stream : Istream)
  | callback (cb : κ) (stream : Istream)

/-- The state of a connection whose response callbacks have type `κ`. -/
structure Connection (κ : Type) where
  socket : Socket
  socketLocked : Bool
  packages : List Package
  uidCounter : UInt64
  callbacks : UInt64 → Option κ

namespace Connection

variable {κ : Type} (o : ByteOrder)

/-- `connection::check_error`, with what it emits. -/
def checkError (err : ErrorCode) : Bool × List (Emission κ) :=
  if !err.isError then (true, [])
  else if err.value = ErrorCode.operationAborted.value then (false, [])
  else if err.value = ErrorCode.eof.value then (false, [.closed])
  else if err.value = ErrorCode.sslShortRead.value then (false, [.closed])
  else (false, [.error err.value err.message])

/-- `connection::wait_package`. -/
def waitPackage (c : Connection κ) : Connection κ :=
  { c with socket := c.socket.asyncRead .readPackageSizeHandler (sizeof UInt64) }

/-- `connection::wait_package_body`. -/
def waitPackageBody (size : UInt64) (c : Connection κ) : Connection κ :=
  { c with socket := c.socket.asyncRead .readPackageBodyHandler size.toNat }

/-- `connection::connection`. -/
def construct (κ : Type) : Connection κ :=
  waitPackage
    { socket := { isOpen := true, reads := [], writes := [] }
      socketLocked := false
      packages := []
      uidCounter := 0
      callbacks := fun _ => none }

/-- `connection::close`, for a given result of the shutdown. -/
def close (shutdown : ErrorCode) (c : Connection κ) :
    Except ErrorCode (Connection κ × List (Emission κ)) :=
  match c.socket.close shutdown with
  | .error e => .error e
  | .ok sckt => .ok ({ c with socket := sckt }, [.closed])

/-- The size read from the buffer over a local that is zero. -/
def packageSize (buffer : List UInt8) : UInt64 :=
  let got := buffer.take (sizeof UInt64)
  valueOf o UInt64 (got ++ (List.replicate (sizeof UInt64) 0).drop got.length)

/-- `connection::read_package_size_handler`. -/
def readPackageSizeHandler (buffer : List UInt8) (err : ErrorCode) (bytes : Nat) (c : Connection κ) :
    Connection κ × List (Emission κ) :=
  let (ok, emitted) := checkError err
  if !ok then (c, emitted)
  else if bytes = 0 then (c, emitted)
  else (waitPackageBody (packageSize o buffer) c, emitted)

/-- `connection::read_package_body_handler` up to the slot or callback it runs, and whether it runs one
    and so goes on with `wait_package()`. -/
def readPackageBodyHandler (junk : Nat → UInt8) (buffer : List UInt8) (err : ErrorCode) (bytes : Nat)
    (c : Connection κ) : Connection κ × List (Emission κ) × Bool :=
  let (ok, emitted) := checkError err
  if !ok then (c, emitted, false)
  else if bytes = 0 then (c, emitted, false)
  else
    let stream := Istream.construct o buffer junk
    match c.callbacks stream.uid with
    | some cb =>
      ({ c with callbacks := Function.update c.callbacks stream.uid none },
        emitted ++ [.callback cb stream], true)
    | none => (c, emitted ++ [.received stream], true)

/-- `connection::create_package`. -/
def createPackage (ptr : Nat) (buffer : List UInt8) : Package :=
  { ptr := ptr
    sizeBuffer := bytesOf o (UInt64.ofNat buffer.length)
    dataBuffer := buffer }

/-- `connection::send_package`, called with `_mutex` held. -/
def sendPackage (pkg : Package) (c : Connection κ) : Connection κ :=
  { c with socketLocked := true, socket := c.socket.asyncWrite pkg }

/-- The part of the write handler that holds `_mutex`. -/
def writeHandlerLocked (c : Connection κ) : Connection κ :=
  match c.packages with
  | pkg :: packages => sendPackage pkg { c with packages := packages }
  | [] => { c with socketLocked := false }

/-- The part of the dispatch slot that holds `_mutex`. -/
def dispatchLocked (pkg : Package) (c : Connection κ) : Connection κ :=
  if c.socketLocked then { c with packages := c.packages ++ [pkg] } else sendPackage pkg c

/-- `connection::create_stream(T command)`. -/
def createStream (cmd : CommandType) (command : cmd.Value) (c : Connection κ) :
    Ostream × Connection κ :=
  (Ostream.construct o cmd command c.uidCounter, { c with uidCounter := c.uidCounter + 1 })

/-- `connection::create_stream(T command, callback cb)`. -/
def createStreamWith (cmd : CommandType) (command : cmd.Value) (cb : κ) (c : Connection κ) :
    Ostream × Connection κ :=
  let (stream, c) := createStream o cmd command c
  (stream, { c with callbacks := Function.update c.callbacks stream.uid (some cb) })

/-! ## What the members change -/

@[simp] theorem sendPackage_socketLocked (pkg : Package) (c : Connection κ) :
    (sendPackage pkg c).socketLocked = true := rfl

@[simp] theorem sendPackage_packages (pkg : Package) (c : Connection κ) :
    (sendPackage pkg c).packages = c.packages := rfl

@[simp] theorem sendPackage_writes (pkg : Package) (c : Connection κ) :
    (sendPackage pkg c).socket.writes =
      c.socket.writes ++ [{ pkg := pkg, result := c.socket.startResult }] := rfl

/-- A package is queued behind the write that holds the flag. -/
theorem dispatchLocked_of_locked (pkg : Package) {c : Connection κ} (hl : c.socketLocked = true) :
    c.dispatchLocked pkg = { c with packages := c.packages ++ [pkg] } := if_pos hl

theorem dispatchLocked_of_unlocked (pkg : Package) {c : Connection κ} (hl : c.socketLocked = false) :
    c.dispatchLocked pkg = c.sendPackage pkg := if_neg (by simp [hl])

/-- The handler of a write sends the first package of the queue. -/
theorem writeHandlerLocked_of_nil {c : Connection κ} (hp : c.packages = []) :
    c.writeHandlerLocked = { c with socketLocked := false } := by
  unfold writeHandlerLocked
  rw [hp]

theorem writeHandlerLocked_of_cons {c : Connection κ} {pkg : Package} {packages : List Package}
    (hp : c.packages = pkg :: packages) :
    c.writeHandlerLocked = sendPackage pkg { c with packages := packages } := by
  unfold writeHandlerLocked
  rw [hp]

/-- `check_error` returns true on success only, and then it emits nothing. -/
theorem checkError_fst (err : ErrorCode) :
    (checkError err : Bool × List (Emission κ)).1 = !err.isError := by
  unfold checkError
  cases h : err.isError <;> simp only [Bool.not_true, Bool.not_false, Bool.false_eq_true, if_true,
    if_false]
  split_ifs <;> rfl

theorem checkError_success {err : ErrorCode} (h : err.isError = false) :
    (checkError err : Bool × List (Emission κ)) = (true, []) := by
  simp [checkError, h]

/-- The size that `create_package` puts in front of a body is the size that is read back. -/
theorem packageSize_bytesOf (size : UInt64) : packageSize o (bytesOf o size) = size := by
  have hlen : (bytesOf o size).length = sizeof UInt64 := bytesOf_length o size
  have htake : (bytesOf o size).take (sizeof UInt64) = bytesOf o size :=
    List.take_of_length_le (Nat.le_of_eq hlen)
  have hpad : (List.replicate (sizeof UInt64) (0 : UInt8)).drop (bytesOf o size).length = [] :=
    List.drop_of_length_le (by rw [hlen, List.length_replicate])
  unfold packageSize
  simp only [htake, hpad, List.append_nil, valueOf_bytesOf]

/-- A read of a size that succeeds goes on with the body. -/
theorem readPackageSizeHandler_success (buffer : List UInt8) {bytes : Nat} (hb : bytes ≠ 0)
    (c : Connection κ) : c.readPackageSizeHandler o buffer .success bytes =
      (waitPackageBody (packageSize o buffer) c, []) := by
  simp [readPackageSizeHandler, checkError_success, ErrorCode.isError, ErrorCode.success, hb]

/-- A read of a body that succeeds runs a slot or a callback, and leaves the socket alone. -/
theorem readPackageBodyHandler_success (junk : Nat → UInt8) (buffer : List UInt8) {bytes : Nat}
    (hb : bytes ≠ 0) (c : Connection κ) :
    (c.readPackageBodyHandler o junk buffer .success bytes).1.socket = c.socket ∧
      (c.readPackageBodyHandler o junk buffer .success bytes).2.2 = true := by
  have hok : (checkError .success : Bool × List (Emission κ)) = (true, []) := checkError_success rfl
  unfold readPackageBodyHandler
  simp only [hok, Bool.not_true, Bool.false_eq_true, if_false, hb]
  split <;> exact ⟨rfl, rfl⟩

end Connection

end Lnetlib
