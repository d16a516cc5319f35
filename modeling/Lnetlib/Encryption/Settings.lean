import Lnetlib.Lib.Run
import Lnetlib.Server.Model

/-!
# `encryption`

The members of `encryption` that change it. The file system and the SSL library are outside: a `World` is
what they answer during one call, and the answers may differ from call to call. A context is told by its
method and by the files that the setters loaded into it, a buffer by the file it was read from. A member
that throws leaves what it had changed before, so each function returns the settings beside the exception.
-/

namespace Lnetlib.Encryption

open Transition

/-- `encryption_method`. -/
inductive Method where
  | sslv2
  | sslv3
  | tlsv1
  | sslv23
  | tlsv11
  | tlsv12
  deriving DecidableEq, Repr

/-- What a setter loads into the context. -/
inductive Material where
  | authority
  | certificate
  | privateKey
  deriving DecidableEq, Repr

/-- An SSL context: its method, and the files that were loaded into it, the last one first. -/
structure SslContext where
  method : Method
  loads : List (Material × String)
  deriving DecidableEq, Repr

def SslContext.load (material : Material) (filename : String) (c : SslContext) : SslContext :=
  { c with loads := (material, filename) :: c.loads }

/-- The name of the file that was last loaded as `material`, empty if there is none. -/
def SslContext.loaded (c : SslContext) (material : Material) : String :=
  ((c.loads.find? fun l => l.1 = material).map Prod.snd).getD ""

/-- What `std::ifstream` finds under the name of a file. -/
inductive File where
  | unopened
  /-- A directory opens, and tells a size that cannot be allocated. -/
  | directory
  | contents (bytes : List UInt8)
  deriving DecidableEq, Repr

/-- What leaves a member by exception. -/
inductive Thrown where
  | badAlloc
  | systemError (location : String) (code : Int)
  deriving DecidableEq, Repr

/-- The answers of the file system and of the SSL library; a code is the error of a call that is
    rejected. -/
structure World where
  files : String → File
  newContext : Method → Option Int
  addCertificateAuthority : SslContext → List UInt8 → Option Int
  useFile : SslContext → Material → String → Option Int

/-- `helper::read_binary_file`: the data and its size. -/
def World.readBinaryFile (w : World) (filename : String) : Except Thrown (List UInt8 × Nat) :=
  match w.files filename with
  | .unopened => .ok ([], 0)
  | .directory => .error .badAlloc
  | .contents bytes => .ok (bytes, bytes.length)

/-- The file is read, has bytes and holds an authority that the context takes. -/
def World.GivesAuthority (w : World) (c : SslContext) (filename : String) : Prop :=
  filename ≠ "" ∧
    ∃ bytes, w.files filename = .contents bytes ∧ bytes ≠ [] ∧ w.addCertificateAuthority c bytes = none

/-- The members of `encryption`; `χ` is the store context a verify callback is given. -/
structure Settings (χ : Type) where
  enabled : Bool
  method : Method
  caFilename : String
  certFilename : String
  privateKeyFilename : String
  verifyMode : Int
  verifyCallback : Option (Bool → χ → Bool)
  context : SslContext
  lastError : String

namespace Settings

variable {χ : Type}

/-- `ssl_verify_none`. -/
def sslVerifyNone : Int := 0

/-- `encryption::encryption`, provided the context can be created. -/
def construct (χ : Type) : Settings χ :=
  { enabled := false
    method := .tlsv11
    caFilename := ""
    certFilename := ""
    privateKeyFilename := ""
    verifyMode := sslVerifyNone
    verifyCallback := none
    context := { method := .tlsv11, loads := [] }
    lastError := "" }

/-- `encryption::init`. -/
def init (w : World) (method : Method) (e : Settings χ) : Settings χ × Option Thrown :=
  let e := { e with
    lastError := ""
    method := method
    caFilename := ""
    certFilename := ""
    privateKeyFilename := ""
    verifyMode := sslVerifyNone
    verifyCallback := none }
  match w.newContext method with
  | some code => (e, some (.systemError "context" code))
  | none => ({ e with context := { method := method, loads := [] } }, none)

/-- `encryption::set_enabled`. -/
def setEnabled (enabled : Bool) (e : Settings χ) : Settings χ := { e with enabled := enabled }

/-- `encryption::set_ca_filename`. -/
def setCaFilename (w : World) (filename : String) (e : Settings χ) : Settings χ × Option Thrown :=
  let e := { e with lastError := "" }
  if filename ≠ "" then
    match w.readBinaryFile filename with
    | .error thrown => (e, some thrown)
    | .ok (data, size) =>
      if 0 < size then
        match w.addCertificateAuthority e.context data with
        | some code => (e, some (.systemError "add_certificate_authority" code))
        -- The name is not kept.
        | none => ({ e with context := e.context.load .authority filename }, none)
      else ({ e with lastError := "Can't read CA file" }, none)
  else (e, none)

/-- `use_certificate_file` and `use_private_key_file` of the context. -/
def useFile (w : World) (material : Material) (location filename : String) (e : Settings χ) :
    Settings χ × Option Thrown :=
  match w.useFile e.context material filename with
  | some code => (e, some (.systemError location code))
  | none => ({ e with context := e.context.load material filename }, none)

/-- `encryption::set_cert_filename`. -/
def setCertFilename (w : World) (filename : String) (e : Settings χ) : Settings χ × Option Thrown :=
  useFile w .certificate "use_certificate_file" filename { e with certFilename := filename }

/-- `encryption::set_private_key_filename`. -/
def setPrivateKeyFilename (w : World) (filename : String) (e : Settings χ) :
    Settings χ × Option Thrown :=
  useFile w .privateKey "use_private_key_file" filename { e with privateKeyFilename := filename }

/-- `encryption::set_verify_mode`. -/
def setVerifyMode (mode : Int) (e : Settings χ) : Settings χ := { e with verifyMode := mode }

/-- `encryption::set_verify_callback`. -/
def setVerifyCallback (callback : Option (Bool → χ → Bool)) (e : Settings χ) : Settings χ :=
  { e with verifyCallback := callback }

/-- `encryption::verify_certificate`. -/
def verifyCertificate (preverified : Bool) (store : χ) (e : Settings χ) : Bool :=
  match e.verifyCallback with
  | some callback => callback preverified store
  | none => preverified

/-- What a server and a client ask for. -/
def asked (e : Settings χ) : Encryption := { enabled := e.enabled, lastError := e.lastError }

/-- `ca_filename`, `cert_filename` and `private_key_filename`. -/
def filename (e : Settings χ) : Material → String
  | .authority => e.caFilename
  | .certificate => e.certFilename
  | .privateKey => e.privateKeyFilename

end Settings

/-- A call of a member that changes the settings. -/
inductive Call (χ : Type) where
  | init (method : Method)
  | setEnabled (enabled : Bool)
  | setCaFilename (filename : String)
  | setCertFilename (filename : String)
  | setPrivateKeyFilename (filename : String)
  | setVerifyMode (mode : Int)
  | setVerifyCallback (callback : Option (Bool → χ → Bool))

namespace Settings

variable {χ : Type}

def call (w : World) (e : Settings χ) : Call χ → Settings χ × Option Thrown
  | .init method => e.init w method
  | .setEnabled enabled => (e.setEnabled enabled, none)
  | .setCaFilename filename => e.setCaFilename w filename
  | .setCertFilename filename => e.setCertFilename w filename
  | .setPrivateKeyFilename filename => e.setPrivateKeyFilename w filename
  | .setVerifyMode mode => (e.setVerifyMode mode, none)
  | .setVerifyCallback callback => (e.setVerifyCallback callback, none)

/-- An action is a call and what the world answers during it. The caller catches what is thrown. -/
def step (e : Settings χ) (a : World × Call χ) : Option (Settings χ) := some (e.call a.1 a.2).1

/-- Every name is that of the file last loaded into the current context. -/
def ReportsLoaded (e : Settings χ) : Prop := ∀ material, e.filename material = e.context.loaded material

/-- The call throws, or it is the one that tells a failure by an error text. -/
def Fails (e : Settings χ) (a : World × Call χ) : Prop :=
  (e.call a.1 a.2).2 ≠ none ∨
    ∃ filename, a.2 = .setCaFilename filename ∧ (e.call a.1 a.2).1.lastError ≠ ""

/-- If the call fails, the names are those from before. -/
def FailureKeepsNames (e : Settings χ) (a : World × Call χ) : Prop :=
  e.Fails a → ∀ material, (e.call a.1 a.2).1.filename material = e.filename material

/-- No authority is loaded, a certificate or a key is rejected only under the name it has already, and
    a context cannot be created only where no file is named. -/
def KeepsReport (e : Settings χ) : World × Call χ → Prop
  | (w, .init method) => w.newContext method = none ∨ ∀ material, e.filename material = ""
  | (w, .setCaFilename filename) => ¬ w.GivesAuthority e.context filename
  | (w, .setCertFilename filename) =>
    w.useFile e.context .certificate filename = none ∨ filename = e.certFilename
  | (w, .setPrivateKeyFilename filename) =>
    w.useFile e.context .privateKey filename = none ∨ filename = e.privateKeyFilename
  | (_, .setEnabled _) => True
  | (_, .setVerifyMode _) => True
  | (_, .setVerifyCallback _) => True

end Settings

end Lnetlib.Encryption
