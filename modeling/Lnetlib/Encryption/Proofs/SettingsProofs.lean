import Mathlib.Logic.Function.Basic
import Lnetlib.Encryption.Settings
import Lnetlib.Client.Model

/-!
# When the settings name what is loaded

The names and the files loaded are both functions of the material. A setter that names and loads updates
both at one place, so agreement is kept; the rest is what one of the two misses.
-/

namespace Lnetlib.Encryption

open Transition

@[simp] theorem SslContext.loaded_nil (method : Method) :
    SslContext.loaded { method := method, loads := [] } = fun _ => "" := rfl

theorem SslContext.loaded_load (material : Material) (filename : String) (c : SslContext) :
    (c.load material filename).loaded = Function.update c.loaded material filename := by
  funext m
  by_cases hm : m = material
  · subst hm
    rw [Function.update_self]
    simp [loaded, load]
  · have hne : material ≠ m := fun h => hm h.symm
    rw [Function.update_of_ne hm]
    simp [loaded, load, hne]

namespace Settings

variable {χ : Type} {w : World} {e e' : Settings χ} {filename : String}

theorem reportsLoaded_iff : e.ReportsLoaded ↔ e.filename = e.context.loaded := funext_iff.symm

/-! ## The members -/

/-- An authority that is taken: the file is loaded and no name is set. -/
theorem setCaFilename_gives (h : w.GivesAuthority e.context filename) :
    e.setCaFilename w filename =
      ({ e with lastError := "", context := e.context.load .authority filename }, none) := by
  obtain ⟨hname, bytes, hfile, hbytes, htaken⟩ := h
  have hsize : 0 < bytes.length := List.length_pos_iff.mpr hbytes
  simp only [setCaFilename, World.readBinaryFile, hfile, htaken, if_pos hname, if_pos hsize]

/-- Otherwise only the error text changes. -/
theorem setCaFilename_eq_of_not_gives (h : ¬ w.GivesAuthority e.context filename) :
    ∃ lastError, (e.setCaFilename w filename).1 = { e with lastError := lastError } := by
  by_cases hname : filename = ""
  · exact ⟨"", by simp only [setCaFilename, hname, ne_eq, not_true_eq_false, if_false]⟩
  · cases hfile : w.files filename with
    | unopened =>
      exact ⟨"Can't read CA file", by simp [setCaFilename, World.readBinaryFile, hname, hfile]⟩
    | directory => exact ⟨"", by simp [setCaFilename, World.readBinaryFile, hname, hfile]⟩
    | contents bytes =>
      by_cases hbytes : bytes = []
      · exact ⟨"Can't read CA file", by
          simp [setCaFilename, World.readBinaryFile, hname, hfile, hbytes]⟩
      · have hsize : 0 < bytes.length := List.length_pos_iff.mpr hbytes
        cases htaken : w.addCertificateAuthority e.context bytes with
        | none => exact absurd ⟨hname, bytes, hfile, hbytes, htaken⟩ h
        | some code =>
          exact ⟨"", by simp [setCaFilename, World.readBinaryFile, hname, hfile, htaken, hsize]⟩

/-- A context that cannot be created leaves the old one, with every name cleared. -/
theorem init_filename (method : Method) : (e.init w method).1.filename = fun _ => "" := by
  funext material
  cases hnew : w.newContext method <;> cases material <;> simp only [init, hnew, Settings.filename]

theorem init_loaded (method : Method) (hnew : w.newContext method = none) :
    (e.init w method).1.context.loaded = fun _ => "" := by
  simp only [init, hnew, SslContext.loaded_nil]

theorem init_context_of_rejected (method : Method) {code : Int} (hnew : w.newContext method = some code) :
    (e.init w method).1.context = e.context := by
  simp only [init, hnew]

theorem useFile_filename (material : Material) (location filename : String) :
    (e.useFile w material location filename).1.filename = e.filename := by
  cases hfile : w.useFile e.context material filename with
  | none =>
    simp only [useFile, hfile]
    rfl
  | some code => simp only [useFile, hfile]

theorem certFilename_update : Settings.filename { e with certFilename := filename } =
    Function.update e.filename .certificate filename := by
  funext material
  cases material <;> rfl

theorem privateKeyFilename_update : Settings.filename { e with privateKeyFilename := filename } =
    Function.update e.filename .privateKey filename := by
  funext material
  cases material <;> rfl

/-- A call of `init` forgets the verify callback, also where it throws. -/
theorem init_verifyCertificate (method : Method) (preverified : Bool) (store : χ) :
    (e.init w method).1.verifyCertificate preverified store = preverified := by
  cases hnew : w.newContext method <;> simp only [init, hnew, verifyCertificate]

/-! ## What a server and a client see -/

/-- A call turns the encryption on or off, or it leaves an error text. -/
theorem call_asked (w : World) (e : Settings χ) (c : Call χ) :
    (∃ enabled, (e.call w c).1.asked = { e.asked with enabled := enabled }) ∨
      ∃ lastError, (e.call w c).1.asked = { e.asked with lastError := lastError } := by
  cases c with
  | setEnabled enabled => exact .inl ⟨enabled, rfl⟩
  | init method =>
    refine .inr ⟨"", ?_⟩
    cases hnew : w.newContext method <;> simp only [call, init, hnew, asked]
  | setCaFilename filename =>
    by_cases hg : w.GivesAuthority e.context filename
    · exact .inr ⟨"", by simp only [call, setCaFilename_gives hg, asked]⟩
    · obtain ⟨lastError, heq⟩ := setCaFilename_eq_of_not_gives hg
      exact .inr ⟨lastError, by simp only [call, heq, asked]⟩
  | setCertFilename filename =>
    refine .inr ⟨e.lastError, ?_⟩
    cases hfile : w.useFile e.context .certificate filename <;>
      simp only [call, setCertFilename, useFile, hfile, asked]
  | setPrivateKeyFilename filename =>
    refine .inr ⟨e.lastError, ?_⟩
    cases hfile : w.useFile e.context .privateKey filename <;>
      simp only [call, setPrivateKeyFilename, useFile, hfile, asked]
  | setVerifyMode mode => exact .inr ⟨e.lastError, rfl⟩
  | setVerifyCallback callback => exact .inr ⟨e.lastError, rfl⟩

/-- The calls through `encryption_info()` of a server are the ones its model has. -/
theorem call_on_server {κ : Type} {s : Server κ} (hs : s.encryption = e.asked) (w : World)
    (c : Call χ) :
    (∃ enabled, { s with encryption := (e.call w c).1.asked } = s.setEnabled enabled) ∨
      ∃ lastError, { s with encryption := (e.call w c).1.asked } = s.setLastError lastError := by
  rcases call_asked w e c with ⟨enabled, h⟩ | ⟨lastError, h⟩
  · exact .inl ⟨enabled, by rw [h, ← hs]; rfl⟩
  · exact .inr ⟨lastError, by rw [h, ← hs]; rfl⟩

/-- And those through `encryption_info()` of a client. -/
theorem call_on_client {κ : Type} {s : Client κ} (hs : s.encryption = e.asked) (w : World)
    (c : Call χ) :
    (∃ enabled, { s with encryption := (e.call w c).1.asked } = s.setEnabled enabled) ∨
      ∃ lastError, { s with encryption := (e.call w c).1.asked } = s.setLastError lastError := by
  rcases call_asked w e c with ⟨enabled, h⟩ | ⟨lastError, h⟩
  · exact .inl ⟨enabled, by rw [h, ← hs]; rfl⟩
  · exact .inr ⟨lastError, by rw [h, ← hs]; rfl⟩

/-! ## What keeps the report -/

theorem init_reportsLoaded (method : Method) (h : e.ReportsLoaded) :
    (e.init w method).1.ReportsLoaded ↔
      w.newContext method = none ∨ ∀ material, e.filename material = "" := by
  rw [reportsLoaded_iff, init_filename]
  cases hnew : w.newContext method with
  | none =>
    have hloaded := init_loaded (e := e) method hnew
    exact ⟨fun _ => .inl rfl, fun _ => hloaded.symm⟩
  | some code =>
    rw [init_context_of_rejected method hnew, ← reportsLoaded_iff.mp h]
    constructor
    · intro heq
      exact .inr fun material => (congrFun heq material).symm
    · rintro (hcode | hnames)
      · cases hcode
      · exact (funext hnames).symm

theorem setCaFilename_reportsLoaded (hca : e.caFilename = "") (h : e.ReportsLoaded) :
    (e.setCaFilename w filename).1.ReportsLoaded ↔ ¬ w.GivesAuthority e.context filename := by
  by_cases hg : w.GivesAuthority e.context filename
  · refine ⟨fun h' => ?_, fun hn => absurd hg hn⟩
    rw [setCaFilename_gives hg] at h'
    have hauthority : e.caFilename = (e.context.load .authority filename).loaded .authority :=
      h' .authority
    rw [SslContext.loaded_load, Function.update_self, hca] at hauthority
    exact absurd hauthority.symm hg.1
  · obtain ⟨lastError, heq⟩ := setCaFilename_eq_of_not_gives hg
    rw [heq]
    exact ⟨fun _ => hg, fun _ => h⟩

/-- The settings `e'` of a setter that has stored the name and goes on with the file. -/
theorem useFile_reportsLoaded {material : Material} {location : String} (h : e.ReportsLoaded)
    (hname : e'.filename = Function.update e.filename material filename)
    (hcontext : e'.context = e.context) :
    (e'.useFile w material location filename).1.ReportsLoaded ↔
      w.useFile e.context material filename = none ∨ filename = e.filename material := by
  have hloaded : e.context.loaded = e.filename := (reportsLoaded_iff.mp h).symm
  rw [reportsLoaded_iff, useFile_filename, hname]
  cases hfile : w.useFile e.context material filename with
  | none =>
    have hload : (e'.useFile w material location filename).1.context =
        e.context.load material filename := by
      simp only [useFile, hcontext, hfile]
    rw [hload, SslContext.loaded_load, hloaded]
    exact ⟨fun _ => .inl rfl, fun _ => rfl⟩
  | some code =>
    have hkept : (e'.useFile w material location filename).1.context = e.context := by
      simp only [useFile, hcontext, hfile]
    rw [hkept, hloaded, Function.update_eq_self_iff]
    constructor
    · exact .inr
    · rintro (hcode | hsame)
      · cases hcode
      · exact hsame

/-- A call keeps the report exactly if it meets the condition. -/
theorem call_reportsLoaded (hca : e.caFilename = "") (h : e.ReportsLoaded) (w : World) (c : Call χ) :
    (e.call w c).1.ReportsLoaded ↔ e.KeepsReport (w, c) := by
  cases c with
  | init method => exact init_reportsLoaded method h
  | setCaFilename filename => exact setCaFilename_reportsLoaded hca h
  | setCertFilename filename => exact useFile_reportsLoaded h certFilename_update rfl
  | setPrivateKeyFilename filename => exact useFile_reportsLoaded h privateKeyFilename_update rfl
  | setEnabled enabled => exact ⟨fun _ => trivial, fun _ => h⟩
  | setVerifyMode mode => exact ⟨fun _ => trivial, fun _ => h⟩
  | setVerifyCallback callback => exact ⟨fun _ => trivial, fun _ => h⟩

/-- No call names an authority. -/
theorem call_caFilename (hca : e.caFilename = "") (w : World) (c : Call χ) :
    (e.call w c).1.caFilename = "" := by
  cases c with
  | init method => exact congrFun (init_filename method) .authority
  | setCaFilename filename =>
    by_cases hg : w.GivesAuthority e.context filename
    · rw [call, setCaFilename_gives hg]
      exact hca
    · obtain ⟨lastError, heq⟩ := setCaFilename_eq_of_not_gives hg
      rw [call, heq]
      exact hca
  | setCertFilename filename =>
    have hname := congrFun (useFile_filename (w := w) (e := { e with certFilename := filename })
      .certificate "use_certificate_file" filename) .authority
    exact hname.trans hca
  | setPrivateKeyFilename filename =>
    have hname := congrFun (useFile_filename (w := w) (e := { e with privateKeyFilename := filename })
      .privateKey "use_private_key_file" filename) .authority
    exact hname.trans hca
  | setEnabled enabled => exact hca
  | setVerifyMode mode => exact hca
  | setVerifyCallback callback => exact hca

/-! ## Failing calls -/

theorem useFile_context_of_thrown {material : Material} {location : String}
    (h : (e.useFile w material location filename).2 ≠ none) :
    (e.useFile w material location filename).1.context = e.context := by
  cases hfile : w.useFile e.context material filename with
  | none => exact absurd (by simp only [useFile, hfile]) h
  | some code => simp only [useFile, hfile]

/-- A call that fails leaves the context. -/
theorem call_context_of_fails {c : Call χ} (h : e.Fails (w, c)) : (e.call w c).1.context = e.context := by
  cases c with
  | init method =>
    rcases h with hthrown | ⟨_, hc, _⟩
    · cases hnew : w.newContext method with
      | none => exact absurd (by simp only [call, init, hnew]) hthrown
      | some code => exact init_context_of_rejected method hnew
    · cases hc
  | setCaFilename filename =>
    by_cases hg : w.GivesAuthority e.context filename
    · have heq := setCaFilename_gives hg
      rcases h with hthrown | ⟨_, _, herror⟩
      · exact absurd (congrArg Prod.snd heq) hthrown
      · exact absurd (congrArg (fun r => r.1.lastError) heq) herror
    · obtain ⟨lastError, heq⟩ := setCaFilename_eq_of_not_gives hg
      rw [call, heq]
  | setCertFilename filename =>
    rcases h with hthrown | ⟨_, hc, _⟩
    · exact useFile_context_of_thrown hthrown
    · cases hc
  | setPrivateKeyFilename filename =>
    rcases h with hthrown | ⟨_, hc, _⟩
    · exact useFile_context_of_thrown hthrown
    · cases hc
  | _ => rfl

/-- Where the names are those of the files before and after, a failing call has kept them. -/
theorem failureKeepsNames_of_reportsLoaded {a : World × Call χ} (h : e.ReportsLoaded)
    (h' : (e.call a.1 a.2).1.ReportsLoaded) : e.FailureKeepsNames a := by
  intro hfails material
  have hcontext := call_context_of_fails hfails
  calc (e.call a.1 a.2).1.filename material
      = (e.call a.1 a.2).1.context.loaded material := h' material
    _ = e.context.loaded material := by rw [hcontext]
    _ = e.filename material := (h material).symm

/-! ## Histories of calls -/

/-- No call is refused. -/
theorem run_eq_some (as : List (World × Call χ)) : ∃ s, run step e as = some s := by
  induction as generalizing e with
  | nil => exact ⟨e, rfl⟩
  | cons a as ih => exact ih

/-- **The settings and the context.** In a history of calls, failing or not, the three names are those of
    the files last loaded into the current context in all states passed through, and no failing call
    changes a name, exactly if no authority is loaded, a certificate and a key are rejected only under
    the name they have already, and a context cannot be created only where no file is named. -/
theorem reportsLoaded_throughout_iff (as : List (World × Call χ)) :
    (Throughout step ReportsLoaded (construct χ) as ∧ Meets step FailureKeepsNames (construct χ) as) ↔
      Meets step KeepsReport (construct χ) as := by
  obtain ⟨s, hr⟩ := run_eq_some (e := construct χ) as
  have hstep : ∀ (e : Settings χ) (a : World × Call χ) (e' : Settings χ), e.caFilename = "" →
      e.ReportsLoaded → step e a = some e' →
      (e'.ReportsLoaded ↔ e.KeepsReport a) ∧ (e'.ReportsLoaded → e'.caFilename = "") := by
    rintro e ⟨w, c⟩ e' hca h hs
    obtain rfl := Option.some.inj hs
    exact ⟨call_reportsLoaded hca h w c, fun _ => call_caFilename hca w c⟩
  have hfirst : (construct χ).ReportsLoaded := by
    intro material
    cases material <;> rfl
  have hiff := throughout_iff_meets hstep rfl hfirst hr
  constructor
  · rintro ⟨hall, _⟩
    exact hiff.mp hall
  · intro hmeets
    have hall := hiff.mpr hmeets
    refine ⟨hall, hall.meets hr ?_⟩
    intro e a e' h h' hs
    obtain rfl := Option.some.inj hs
    exact failureKeepsNames_of_reportsLoaded h h'

/-- Every file can be read and every file is taken, but the certificate `missing.pem`. -/
def somePem : World :=
  { files := fun _ => .contents [1]
    newContext := fun _ => none
    addCertificateAuthority := fun _ _ => none
    useFile := fun _ _ filename => if filename = "missing.pem" then some 33558530 else none }

/-- An authority that was loaded is not named, and a certificate that was rejected is. -/
theorem authority_is_not_named :
    ∃ s, run step (construct Unit) [(somePem, .setCaFilename "ca.pem"),
        (somePem, .setCertFilename "missing.pem")] = some s ∧
      s.context.loads = [(.authority, "ca.pem")] ∧ s.filename .authority = "" ∧
      s.filename .certificate = "missing.pem" ∧
      ¬ (Throughout step ReportsLoaded (construct Unit) [(somePem, .setCaFilename "ca.pem"),
          (somePem, .setCertFilename "missing.pem")] ∧
        Meets step FailureKeepsNames (construct Unit) [(somePem, .setCaFilename "ca.pem"),
          (somePem, .setCertFilename "missing.pem")]) := by
  refine ⟨_, rfl, by decide, by decide, by decide, fun h => ?_⟩
  have hauthority := h.1.last rfl .authority
  exact absurd hauthority (by decide)

end Settings

end Lnetlib.Encryption
