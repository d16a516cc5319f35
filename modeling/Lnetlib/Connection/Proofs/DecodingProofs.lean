import Lnetlib.Connection.Decoding
import Lnetlib.Stream.Proofs.TruncatedProofs

/-!
# Decoding depends on the body only where every read is covered by it

For each reader two facts: where the bytes before it determine its result, it gives the same result
whatever the raw memory holds, and where they do not, there are two contents of the raw memory for which
the results differ (`ReaderSpec`). A sequence of reads follows by induction, the raw memory of an earlier
read being shifted in front of that of the later ones.
-/

namespace Lnetlib

open Bytes

variable (o : ByteOrder)

/-- The contents of `n` bytes of raw memory. -/
def rawBytes (junk : Nat → UInt8) (n : Nat) : List UInt8 := (List.range n).map junk

@[simp] theorem rawBytes_length (junk : Nat → UInt8) (n : Nat) : (rawBytes junk n).length = n := by
  simp [rawBytes]

/-- Raw memory can hold any bytes. -/
theorem exists_rawBytes_drop {k n : Nat} {bs : List UInt8} (h : k + bs.length = n) :
    ∃ junk, (rawBytes junk n).drop k = bs := by
  refine ⟨fun i => bs.getD (i - k) 0, ?_⟩
  apply List.ext_getElem
  · rw [List.length_drop, rawBytes_length]
    omega
  · intro i h₁ h₂
    simp [rawBytes, h₂]

theorem exists_ne_of_ne_nil {bs : List UInt8} (h : bs ≠ []) :
    ∃ cs : List UInt8, cs.length = bs.length ∧ cs ≠ bs := by
  refine ⟨bs.map (· + 1), List.length_map _, ?_⟩
  cases bs with
  | nil => exact absurd rfl h
  | cons b bs =>
    intro heq
    have hhead : b + 1 = b := (List.cons.inj heq).1
    have hnat := congrArg UInt8.toNat hhead
    rw [UInt8.toNat_add] at hnat
    have := b.toNat_lt
    have hone : (1 : UInt8).toNat = 1 := rfl
    omega

theorem exists_missing {k n : Nat} (hle : k ≤ n) : ∃ bs : List UInt8, k + bs.length = n := by
  refine ⟨List.replicate (n - k) 0, ?_⟩
  rw [List.length_replicate]
  omega

/-- Where bytes are missing, one content of the raw memory gives these, and another one gives others. -/
theorem exists_two_fills {k n : Nat} {bs : List UInt8} (hlt : k < n) (hbs : k + bs.length = n) :
    ∃ (junk₁ junk₂ : Nat → UInt8) (cs : List UInt8), cs.length = bs.length ∧ cs ≠ bs ∧
      (rawBytes junk₁ n).drop k = bs ∧ (rawBytes junk₂ n).drop k = cs := by
  have hne : bs ≠ [] := fun hnil => by
    rw [hnil, List.length_nil] at hbs
    omega
  obtain ⟨cs, hcs, hdiff⟩ := exists_ne_of_ne_nil hne
  obtain ⟨junk₁, hj₁⟩ := exists_rawBytes_drop hbs
  obtain ⟨junk₂, hj₂⟩ := exists_rawBytes_drop (hcs ▸ hbs)
  exact ⟨junk₁, junk₂, cs, hcs, hdiff, hj₁, hj₂⟩

section

variable {T : Type} [Basic T] {is : Istream} {rest : List UInt8}

theorem valueOf_ne {bs cs : List UInt8} (hb : rest.length + bs.length = sizeof T)
    (hc : cs.length = bs.length) (h : cs ≠ bs) : valueOf o T (rest ++ bs) ≠ valueOf o T (rest ++ cs) := by
  intro heq
  have hbytes := congrArg (bytesOf o) heq
  have hlen : (rest ++ bs).length = sizeof T := by rw [List.length_append, hb]
  have hlen' : (rest ++ cs).length = sizeof T := by rw [List.length_append, hc, hb]
  rw [bytesOf_valueOf o hlen, bytesOf_valueOf o hlen'] at hbytes
  exact h (List.append_cancel_left hbytes).symm

/-- `read_basic` at the end of a body: the missing bytes are those of the raw memory. -/
theorem Istream.Follows.readBasic (h : is.Follows rest) :
    (is.readBasic o T).1 =
        valueOf o T (rest.take (sizeof T) ++ (rawBytes is.junk (sizeof T)).drop rest.length) ∧
      (is.readBasic o T).2.Follows (rest.drop (sizeof T)) ∧
      (is.readBasic o T).2.junk = fun i => is.junk (i + sizeof T) := by
  obtain ⟨hdata, hfollows, hjunk⟩ := (h.uninit (sizeof T)).read (is.uninit (sizeof T)).1
  rw [Istream.uninit_length] at hdata hfollows
  exact ⟨congrArg (valueOf o T) hdata, hfollows, hjunk⟩

theorem Istream.Follows.readBasic_covered (h : is.Follows rest) (hle : sizeof T ≤ rest.length) :
    (is.readBasic o T).1 = valueOf o T (rest.take (sizeof T)) := by
  have hdrop : (rawBytes is.junk (sizeof T)).drop rest.length = [] :=
    List.drop_of_length_le (by rw [rawBytes_length]; exact hle)
  rw [(h.readBasic o).1, hdrop, List.append_nil]

/-- Where the bytes come short, some are those of the raw memory. -/
theorem Istream.Follows.readBasic_cut (h : is.Follows rest) (hlt : rest.length < sizeof T) :
    ∃ missing, rest.length + missing.length = sizeof T ∧
      missing = (rawBytes is.junk (sizeof T)).drop rest.length ∧
      (is.readBasic o T).1 = valueOf o T (rest ++ missing) := by
  refine ⟨_, ?_, rfl, ?_⟩
  · rw [List.length_drop, rawBytes_length]
    omega
  · rw [(h.readBasic o).1, List.take_of_length_le (Nat.le_of_lt hlt)]

end

/-- Where the bytes come short, any missing bytes can be read, and other ones as well. -/
theorem exists_readBasic_ne {T : Type} [Basic T] {rest bs : List UInt8} (hlt : rest.length < sizeof T)
    (hbs : rest.length + bs.length = sizeof T) :
    ∃ junk₁ junk₂, ∀ is₁ is₂, Istream.Follows is₁ rest → Istream.Follows is₂ rest →
      is₁.junk = junk₁ → is₂.junk = junk₂ →
      (is₁.readBasic o T).1 = valueOf o T (rest ++ bs) ∧
        (is₂.readBasic o T).1 ≠ valueOf o T (rest ++ bs) := by
  obtain ⟨junk₁, junk₂, cs, hcs, hdiff, hj₁, hj₂⟩ := exists_two_fills hlt hbs
  refine ⟨junk₁, junk₂, ?_⟩
  rintro is₁ is₂ hf₁ hf₂ rfl rfl
  obtain ⟨m₁, -, hm₁, hv₁⟩ := hf₁.readBasic_cut o hlt
  obtain ⟨m₂, -, hm₂, hv₂⟩ := hf₂.readBasic_cut o hlt
  rw [hv₁, hv₂, hm₁, hm₂, hj₁, hj₂]
  exact ⟨rfl, (valueOf_ne o hbs hcs hdiff).symm⟩

/-- A reader that gives the same result whatever the raw memory holds where `determined`, and different
    ones for some contents elsewhere. -/
structure ReaderSpec {R : Type} (read : Istream → Except StdException R × Istream)
    (determined : List UInt8 → Prop) (leaves : List UInt8 → List UInt8) : Prop where
  same : ∀ rest, determined rest → ∃ k r, ∀ is, Istream.Follows is rest →
    (read is).1 = r ∧ (read is).2.Follows (leaves rest) ∧ (read is).2.junk = fun i => is.junk (i + k)
  differs : ∀ rest, ¬ determined rest → ∃ junk₁ junk₂, ∀ is₁ is₂, Istream.Follows is₁ rest →
    Istream.Follows is₂ rest → is₁.junk = junk₁ → is₂.junk = junk₂ → (read is₁).1 ≠ (read is₂).1

/-- The fixed-width readers. -/
theorem readerSpec_basic (T : Type) [Basic T] :
    ReaderSpec (fun is => ((.ok (is.readBasic o T).1, (is.readBasic o T).2) :
        Except StdException T × Istream))
      (fun rest => if sizeof T ≤ rest.length then
          false = true → 0 ≤ ptrdiffMax → sizeof T + 0 ≤ rest.length
        else ∀ missing : List UInt8, rest.length + missing.length = sizeof T → ptrdiffMax < 0)
      (fun rest => if 0 ≤ ptrdiffMax then rest.drop (sizeof T + 0) else rest.drop (sizeof T)) := by
  constructor
  · intro rest h
    have hle : sizeof T ≤ rest.length := by
      by_contra hgt
      rw [if_neg hgt] at h
      obtain ⟨missing, hlen⟩ := exists_missing (Nat.le_of_not_le hgt)
      exact absurd (h missing hlen) (Nat.not_lt_zero _)
    refine ⟨sizeof T, .ok (valueOf o T (rest.take (sizeof T))), fun is hf => ?_⟩
    obtain ⟨-, hfollows, hjunk⟩ := hf.readBasic o (T := T)
    rw [if_pos (Nat.zero_le _)]
    exact ⟨congrArg Except.ok (hf.readBasic_covered o hle), hfollows, hjunk⟩
  · intro rest h
    have hlt : rest.length < sizeof T := by
      by_contra hle
      exact h (by rw [if_pos (Nat.not_lt.mp hle)]; exact fun hf => absurd hf Bool.false_ne_true)
    obtain ⟨bs, hbs⟩ := exists_missing (Nat.le_of_lt hlt)
    obtain ⟨junk₁, junk₂, hread⟩ := exists_readBasic_ne o hlt hbs
    refine ⟨junk₁, junk₂, fun is₁ is₂ hf₁ hf₂ hj₁ hj₂ heq => ?_⟩
    obtain ⟨hv, hne⟩ := hread is₁ is₂ hf₁ hf₂ hj₁ hj₂
    exact hne ((Except.ok.inj heq).symm.trans hv)

/-- Raw memory that is `junk` once `k` bytes of it are used. -/
theorem shifted_junk (junk : Nat → UInt8) (k : Nat) :
    (fun i => (fun j => junk (j - k)) (i + k)) = junk := by
  funext i
  exact congrArg junk (Nat.add_sub_cancel i k)

/-- What tells the raw memory apart after `next` tells it apart before, where `next` uses up a number of
    bytes of it. -/
theorem differs_after {A : Type*} {rest left : List UInt8} {k : Nat} {next : Istream → Istream}
    {f : Istream → A}
    (hnext : ∀ is, Istream.Follows is rest →
      (next is).Follows left ∧ (next is).junk = fun i => is.junk (i + k))
    (h : ∃ junk₁ junk₂, ∀ is₁ is₂, Istream.Follows is₁ left → Istream.Follows is₂ left →
      is₁.junk = junk₁ → is₂.junk = junk₂ → f is₁ ≠ f is₂) :
    ∃ junk₁ junk₂, ∀ is₁ is₂, Istream.Follows is₁ rest → Istream.Follows is₂ rest →
      is₁.junk = junk₁ → is₂.junk = junk₂ → f (next is₁) ≠ f (next is₂) := by
  obtain ⟨junk₁, junk₂, hne⟩ := h
  refine ⟨fun i => junk₁ (i - k), fun i => junk₂ (i - k), fun is₁ is₂ hf₁ hf₂ hj₁ hj₂ => ?_⟩
  obtain ⟨hleft₁, hused₁⟩ := hnext is₁ hf₁
  obtain ⟨hleft₂, hused₂⟩ := hnext is₂ hf₂
  rw [hj₁, shifted_junk] at hused₁
  rw [hj₂, shifted_junk] at hused₂
  exact hne _ _ hleft₁ hleft₂ hused₁ hused₂

section

variable {U R : Type} [Unsigned U] (e : StdException) (size : U → Nat)
  (payloadRead : U → Istream → R × Istream)

/-- A reader with a size prefix: the prefix, and then `size` bytes of payload if they can be
    allocated. -/
def sizedRead (is : Istream) : Except StdException R × Istream :=
  if size (is.readBasic o U).1 ≤ ptrdiffMax then
    (.ok (payloadRead (is.readBasic o U).1 (is.readBasic o U).2).1,
      (payloadRead (is.readBasic o U).1 (is.readBasic o U).2).2)
  else (.error e, (is.readBasic o U).2)

theorem sizedRead_ok {is : Istream} {v : U} (hv : (is.readBasic o U).1 = v)
    (h : size v ≤ ptrdiffMax) :
    sizedRead o e size payloadRead is = (.ok (payloadRead v (is.readBasic o U).2).1,
      (payloadRead v (is.readBasic o U).2).2) := by
  subst hv
  exact if_pos h

theorem sizedRead_error {is : Istream} {v : U} (hv : (is.readBasic o U).1 = v)
    (h : ¬ size v ≤ ptrdiffMax) :
    sizedRead o e size payloadRead is = (.error e, (is.readBasic o U).2) := by
  subst hv
  exact if_neg h

variable {payloadRead} (raw : Bool)

/-- The prefix and what it claims is there, or what it claims cannot be allocated anyhow. -/
def sizedDetermined (rest : List UInt8) : Prop :=
  if sizeof U ≤ rest.length then
    raw = true → size (valueOf o U (rest.take (sizeof U))) ≤ ptrdiffMax →
      sizeof U + size (valueOf o U (rest.take (sizeof U))) ≤ rest.length
  else ∀ missing : List UInt8, rest.length + missing.length = sizeof U →
    ptrdiffMax < size (valueOf o U (rest ++ missing))

/-- What a reader with a size prefix leaves. -/
def sizedLeaves (rest : List UInt8) : List UInt8 :=
  if size (valueOf o U (rest.take (sizeof U))) ≤ ptrdiffMax then
    rest.drop (sizeof U + size (valueOf o U (rest.take (sizeof U))))
  else rest.drop (sizeof U)

theorem sizedRead_same
    (same : ∀ v rest, (raw = true → size v ≤ rest.length) → ∃ k r, ∀ is, Istream.Follows is rest →
      (payloadRead v is).1 = r ∧ (payloadRead v is).2.Follows (rest.drop (size v)) ∧
        (payloadRead v is).2.junk = fun i => is.junk (i + k))
    {rest : List UInt8} (h : sizedDetermined o size raw rest) :
    ∃ k r, ∀ is, Istream.Follows is rest → (sizedRead o e size payloadRead is).1 = r ∧
      (sizedRead o e size payloadRead is).2.Follows (sizedLeaves o size rest) ∧
      (sizedRead o e size payloadRead is).2.junk = fun i => is.junk (i + k) := by
  unfold sizedDetermined at h
  unfold sizedLeaves
  by_cases hle : sizeof U ≤ rest.length
  · rw [if_pos hle] at h
    by_cases hn : size (valueOf o U (rest.take (sizeof U))) ≤ ptrdiffMax
    · obtain ⟨k, r, hr⟩ := same (valueOf o U (rest.take (sizeof U))) (rest.drop (sizeof U))
        fun hraw => by
          have := h hraw hn
          rw [List.length_drop]
          omega
      refine ⟨sizeof U + k, .ok r, fun is hf => ?_⟩
      obtain ⟨-, hfollows, hjunk⟩ := hf.readBasic o (T := U)
      obtain ⟨hres, hleft, hused⟩ := hr _ hfollows
      rw [sizedRead_ok o e size payloadRead (hf.readBasic_covered o hle) hn, if_pos hn,
        ← List.drop_drop]
      refine ⟨congrArg Except.ok hres, hleft, ?_⟩
      rw [hused, hjunk]
      funext i
      exact congrArg is.junk (by omega)
    · refine ⟨sizeof U, .error e, fun is hf => ?_⟩
      obtain ⟨-, hfollows, hjunk⟩ := hf.readBasic o (T := U)
      rw [sizedRead_error o e size payloadRead (hf.readBasic_covered o hle) hn, if_neg hn]
      exact ⟨rfl, hfollows, hjunk⟩
  · rw [if_neg hle] at h
    have hlt : rest.length < sizeof U := by omega
    refine ⟨sizeof U, .error e, fun is hf => ?_⟩
    obtain ⟨-, hfollows, hjunk⟩ := hf.readBasic o (T := U)
    obtain ⟨missing, hlen, -, hv⟩ := hf.readBasic_cut o hlt
    rw [sizedRead_error o e size payloadRead hv (Nat.not_le.mpr (h missing hlen))]
    have hnil : ∀ n, rest.drop (sizeof U + n) = [] := fun n =>
      List.drop_of_length_le (by omega)
    rw [hnil, show rest.drop (sizeof U) = [] from hnil 0, ite_self]
    rw [show rest.drop (sizeof U) = [] from hnil 0] at hfollows
    exact ⟨rfl, hfollows, hjunk⟩

theorem sizedRead_differs
    (inj : ∀ v₁ v₂ is₁ is₂, (payloadRead v₁ is₁).1 = (payloadRead v₂ is₂).1 → v₁ = v₂)
    (differs : ∀ v rest, raw = true → rest.length < size v → ∃ junk₁ junk₂, ∀ is₁ is₂,
      Istream.Follows is₁ rest → Istream.Follows is₂ rest → is₁.junk = junk₁ → is₂.junk = junk₂ →
        (payloadRead v is₁).1 ≠ (payloadRead v is₂).1)
    {rest : List UInt8} (h : ¬ sizedDetermined o size raw rest) :
    ∃ junk₁ junk₂, ∀ is₁ is₂, Istream.Follows is₁ rest → Istream.Follows is₂ rest →
      is₁.junk = junk₁ → is₂.junk = junk₂ →
        (sizedRead o e size payloadRead is₁).1 ≠ (sizedRead o e size payloadRead is₂).1 := by
  unfold sizedDetermined at h
  by_cases hle : sizeof U ≤ rest.length
  · -- the payload comes short
    rw [if_pos hle] at h
    simp only [not_forall] at h
    obtain ⟨hraw, hn, hshort⟩ := h
    obtain ⟨junk₁, junk₂, hne⟩ := differs_after
      (fun is hf => (hf.readBasic o (T := U)).2)
      (differs (valueOf o U (rest.take (sizeof U))) (rest.drop (sizeof U)) hraw
        (by rw [List.length_drop]; omega))
    refine ⟨junk₁, junk₂, fun is₁ is₂ hf₁ hf₂ hj₁ hj₂ heq => ?_⟩
    rw [sizedRead_ok o e size payloadRead (hf₁.readBasic_covered o hle) hn,
      sizedRead_ok o e size payloadRead (hf₂.readBasic_covered o hle) hn] at heq
    exact hne is₁ is₂ hf₁ hf₂ hj₁ hj₂ (Except.ok.inj heq)
  · -- the prefix comes short, and some missing bytes claim a payload that can be allocated
    rw [if_neg hle] at h
    simp only [not_forall, Nat.not_lt] at h
    obtain ⟨missing, hlen, hn⟩ := h
    have hlt : rest.length < sizeof U := by omega
    obtain ⟨junk₁, junk₂, hread⟩ := exists_readBasic_ne o hlt hlen
    refine ⟨junk₁, junk₂, fun is₁ is₂ hf₁ hf₂ hj₁ hj₂ heq => ?_⟩
    obtain ⟨hv, hne⟩ := hread is₁ is₂ hf₁ hf₂ hj₁ hj₂
    rw [sizedRead_ok o e size payloadRead hv hn] at heq
    by_cases hn₂ : size (is₂.readBasic o U).1 ≤ ptrdiffMax
    · rw [sizedRead_ok o e size payloadRead rfl hn₂] at heq
      exact hne (inj _ _ _ _ (Except.ok.inj heq)).symm
    · rw [sizedRead_error o e size payloadRead rfl hn₂] at heq
      cases heq

/-- The readers with a size prefix. -/
theorem readerSpec_sized
    (inj : ∀ v₁ v₂ is₁ is₂, (payloadRead v₁ is₁).1 = (payloadRead v₂ is₂).1 → v₁ = v₂)
    (same : ∀ v rest, (raw = true → size v ≤ rest.length) → ∃ k r, ∀ is, Istream.Follows is rest →
      (payloadRead v is).1 = r ∧ (payloadRead v is).2.Follows (rest.drop (size v)) ∧
        (payloadRead v is).2.junk = fun i => is.junk (i + k))
    (differs : ∀ v rest, raw = true → rest.length < size v → ∃ junk₁ junk₂, ∀ is₁ is₂,
      Istream.Follows is₁ rest → Istream.Follows is₂ rest → is₁.junk = junk₁ → is₂.junk = junk₂ →
        (payloadRead v is₁).1 ≠ (payloadRead v is₂).1) :
    ReaderSpec (sizedRead o e size payloadRead) (sizedDetermined o size raw) (sizedLeaves o size) where
  same := fun _ h => sizedRead_same o e size raw same h
  differs := fun _ h => sizedRead_differs o e size raw inj differs h

end

/-- Reading over zeros never shows raw memory. -/
theorem readerSpec_chunk (T U : Type) [Basic T] [Unsigned U] (writer : ChunkWriter) :
    ReaderSpec ((FieldType.chunk T U writer).readOn o) ((FieldType.chunk T U writer).Determined o)
      ((FieldType.chunk T U writer).leaves o) := by
  let payloadRead : U → Istream → List T × Istream := fun v is =>
    let data := is.read (List.replicate (Unsigned.toNat v * sizeof T) 0)
    (arrayOf o T (Unsigned.toNat v) data.1, data.2)
  have hread : (FieldType.chunk T U writer).readOn o =
      sizedRead o .lengthError (fun v => Unsigned.toNat v * sizeof T) payloadRead := by
    funext is
    by_cases h : Unsigned.toNat (is.readBasic o U).1 * sizeof T ≤ ptrdiffMax
    · rw [sizedRead_ok o .lengthError (fun v => Unsigned.toNat v * sizeof T) payloadRead rfl h]
      simp only [FieldType.readOn, FieldType.read, FieldType.readIn, Istream.readDataChunk,
        if_neg (Nat.not_lt.mpr h), if_pos (Memory.ample_holdsElements [] _)]
      rfl
    · rw [sizedRead_error o .lengthError (fun v => Unsigned.toNat v * sizeof T) payloadRead rfl h]
      simp only [FieldType.readOn, FieldType.read, FieldType.readIn, Istream.readDataChunk,
        if_pos (Nat.not_le.mp h)]
      rfl
  rw [hread]
  apply readerSpec_sized o .lengthError (fun v => Unsigned.toNat v * sizeof T) false
  · intro v₁ v₂ is₁ is₂ heq
    have hlength := congrArg List.length heq
    rwa [arrayOf_length, arrayOf_length, Unsigned.toNat_inj] at hlength
  · intro v rest _
    refine ⟨0, arrayOf o T (Unsigned.toNat v) (rest.take (Unsigned.toNat v * sizeof T) ++
      (List.replicate (Unsigned.toNat v * sizeof T) 0).drop rest.length), fun is hf => ?_⟩
    obtain ⟨hdata, hfollows, hjunk⟩ := hf.read (List.replicate (Unsigned.toNat v * sizeof T) 0)
    rw [List.length_replicate] at hdata hfollows
    exact ⟨congrArg (arrayOf o T (Unsigned.toNat v)) hdata, hfollows, hjunk⟩
  · intro v rest hraw
    exact absurd hraw Bool.false_ne_true

/-- An array without an initialiser shows raw memory where the payload comes short. -/
theorem readerSpec_charChunk (U : Type) [Unsigned U] (writer : ChunkWriter) :
    ReaderSpec ((FieldType.charChunk U writer).readOn o) ((FieldType.charChunk U writer).Determined o)
      ((FieldType.charChunk U writer).leaves o) := by
  let payloadRead : U → Istream → (U × List CChar) × Istream := fun v is =>
    let data := is.uninit (Unsigned.toNat v)
    ((v, (data.2.read data.1).1), (data.2.read data.1).2)
  have hread : (FieldType.charChunk U writer).readOn o =
      sizedRead o .badArrayNewLength Unsigned.toNat payloadRead := by
    funext is
    by_cases h : Unsigned.toNat (is.readBasic o U).1 ≤ ptrdiffMax
    · rw [sizedRead_ok o .badArrayNewLength Unsigned.toNat payloadRead rfl h]
      simp only [FieldType.readOn, FieldType.read, FieldType.readIn, Istream.readDataChunkPtr, Memory.ample,
        if_neg (Nat.not_lt.mpr h), if_true]
      rfl
    · rw [sizedRead_error o .badArrayNewLength Unsigned.toNat payloadRead rfl h]
      simp only [FieldType.readOn, FieldType.read, FieldType.readIn, Istream.readDataChunkPtr,
        if_pos (Nat.not_le.mp h)]
      rfl
  -- what the array holds after the read
  have hpayload : ∀ (v : U) (rest : List UInt8) (is : Istream), is.Follows rest →
      (payloadRead v is).1 = (v, rest.take (Unsigned.toNat v) ++
        (rawBytes is.junk (Unsigned.toNat v)).drop rest.length) ∧
      (payloadRead v is).2.Follows (rest.drop (Unsigned.toNat v)) ∧
      (payloadRead v is).2.junk = fun i => is.junk (i + Unsigned.toNat v) := by
    intro v rest is hf
    obtain ⟨hdata, hfollows, hjunk⟩ := (hf.uninit (Unsigned.toNat v)).read
      (is.uninit (Unsigned.toNat v)).1
    rw [Istream.uninit_length] at hdata hfollows
    exact ⟨congrArg (Prod.mk v) hdata, hfollows, hjunk⟩
  rw [hread]
  apply readerSpec_sized o .badArrayNewLength Unsigned.toNat true
  · intro v₁ v₂ is₁ is₂ heq
    exact (Prod.mk.inj heq).1
  · intro v rest hcovered
    refine ⟨Unsigned.toNat v, (v, rest.take (Unsigned.toNat v)), fun is hf => ?_⟩
    obtain ⟨hdata, hfollows, hjunk⟩ := hpayload v rest is hf
    rw [List.drop_of_length_le (by rw [rawBytes_length]; exact hcovered rfl), List.append_nil] at hdata
    exact ⟨hdata, hfollows, hjunk⟩
  · intro v rest _ hlt
    obtain ⟨bs, hbs⟩ := exists_missing (Nat.le_of_lt hlt)
    obtain ⟨junk₁, junk₂, cs, -, hdiff, hj₁, hj₂⟩ := exists_two_fills hlt hbs
    refine ⟨junk₁, junk₂, ?_⟩
    rintro is₁ is₂ hf₁ hf₂ rfl rfl heq
    rw [(hpayload v rest is₁ hf₁).1, (hpayload v rest is₂ hf₂).1, hj₁, hj₂] at heq
    exact hdiff (List.append_cancel_left (Prod.mk.inj heq).2).symm

/-- Every reader. -/
theorem FieldType.readerSpec (t : FieldType) :
    ReaderSpec (t.readOn o) (t.Determined o) (t.leaves o) := by
  cases t with
  | int8 => exact readerSpec_basic o Int8
  | uint8 => exact readerSpec_basic o UInt8
  | int16 => exact readerSpec_basic o Int16
  | uint16 => exact readerSpec_basic o UInt16
  | int32 => exact readerSpec_basic o Int32
  | uint32 => exact readerSpec_basic o UInt32
  | int64 => exact readerSpec_basic o Int64
  | uint64 => exact readerSpec_basic o UInt64
  | float32 => exact readerSpec_basic o (FloatBits 4)
  | float64 => exact readerSpec_basic o (FloatBits 8)
  | chunk T U writer => exact readerSpec_chunk o T U writer
  | charChunk U writer => exact readerSpec_charChunk o U writer

theorem readTrace_same (ts : List FieldType) {rest : List UInt8} (h : TraceDetermined o ts rest) :
    ∃ results, ∀ is, Istream.Follows is rest → readTrace o ts is = results := by
  induction ts generalizing rest with
  | nil => exact ⟨[], fun _ _ => rfl⟩
  | cons t ts ih =>
    obtain ⟨k, r, hr⟩ := (t.readerSpec o).same rest h.1
    obtain ⟨results, hresults⟩ := ih h.2
    refine ⟨⟨t, r⟩ :: results, fun is hf => ?_⟩
    obtain ⟨hres, hleft, -⟩ := hr is hf
    rw [readTrace, hres, hresults _ hleft]

theorem readTrace_differs (ts : List FieldType) {rest : List UInt8} (h : ¬ TraceDetermined o ts rest) :
    ∃ junk₁ junk₂, ∀ is₁ is₂, Istream.Follows is₁ rest → Istream.Follows is₂ rest →
      is₁.junk = junk₁ → is₂.junk = junk₂ → readTrace o ts is₁ ≠ readTrace o ts is₂ := by
  induction ts generalizing rest with
  | nil => exact absurd trivial h
  | cons t ts ih =>
    by_cases ht : t.Determined o rest
    · obtain ⟨k, r, hr⟩ := (t.readerSpec o).same rest ht
      obtain ⟨junk₁, junk₂, hne⟩ := differs_after (fun is hf => (hr is hf).2)
        (ih fun hts => h ⟨ht, hts⟩)
      refine ⟨junk₁, junk₂, fun is₁ is₂ hf₁ hf₂ hj₁ hj₂ heq => ?_⟩
      exact hne is₁ is₂ hf₁ hf₂ hj₁ hj₂ (List.cons.inj heq).2
    · obtain ⟨junk₁, junk₂, hne⟩ := (t.readerSpec o).differs rest ht
      refine ⟨junk₁, junk₂, fun is₁ is₂ hf₁ hf₂ hj₁ hj₂ heq => ?_⟩
      exact hne is₁ is₂ hf₁ hf₂ hj₁ hj₂ (eq_of_heq (Sigma.mk.inj (List.cons.inj heq).1).2)

/-- What the constructor makes of a body of any length. -/
theorem construct_reads (body : List UInt8) (junk : Nat → UInt8) :
    (Istream.construct o body junk).command = valueOf o UInt64 (body.take (sizeof UInt64) ++
        (rawBytes junk (sizeof UInt64)).drop body.length) ∧
      (Istream.construct o body junk).uid = valueOf o UInt64
        ((body.drop (sizeof UInt64)).take (sizeof UInt64) ++
          (rawBytes (fun i => junk (i + sizeof UInt64)) (sizeof UInt64)).drop
            (body.drop (sizeof UInt64)).length) ∧
      (Istream.construct o body junk).Follows (body.drop (sizeof UInt64 + sizeof UInt64)) ∧
      (Istream.construct o body junk).junk = fun i => junk (i + (sizeof UInt64 + sizeof UInt64)) := by
  let is₀ : Istream :=
    { rest := body, eofbit := false, failbit := false, command := 0, uid := 0, junk := junk }
  have hf₀ : is₀.Follows body := ⟨.inl rfl, rfl⟩
  have hf₁ := (hf₀.uninit (sizeof UInt64)).uninit (sizeof UInt64)
  obtain ⟨hcommand, hf₂, hjunk₂⟩ := hf₁.read (is₀.uninit (sizeof UInt64)).1
  rw [Istream.uninit_length] at hcommand hf₂
  obtain ⟨huid, hf₃, hjunk₃⟩ := hf₂.read ((is₀.uninit (sizeof UInt64)).2.uninit (sizeof UInt64)).1
  rw [Istream.uninit_length] at huid hf₃
  rw [List.drop_drop] at hf₃
  refine ⟨congrArg (valueOf o UInt64) hcommand, congrArg (valueOf o UInt64) huid,
    ⟨hf₃.good, hf₃.rest⟩, ?_⟩
  refine (hjunk₃.trans hjunk₂).trans (funext fun i => ?_)
  show junk (i + sizeof UInt64 + sizeof UInt64) = _
  rw [Nat.add_assoc]

namespace Connection

variable {κ : Type} (c : Connection κ) (ts : List FieldType)

theorem decode_eq {body : List UInt8} (hb : body ≠ []) (junk : Nat → UInt8) :
    let is := Istream.construct o body junk
    c.decode o body ts junk = some ⟨is.command, is.uid, c.callbacks is.uid, readTrace o ts is⟩ := by
  intro is
  have hlen : body.length ≠ 0 := fun h => hb (List.eq_nil_of_length_eq_zero h)
  have hok : (checkError .success : Bool × List (Emission κ)) = (true, []) := checkError_success rfl
  unfold decode readPackageBodyHandler
  simp only [hok, Bool.not_true, Bool.false_eq_true, if_false, hlen]
  cases hcb : c.callbacks is.uid with
  | none => rfl
  | some cb => rfl

/-- **Decoding depends on the body only.** Two runs that differ in the raw memory report the same command
    and uid, choose the same callback and read the same values exactly when the body is empty, so that
    it is not handed on, or has a whole header and determines every read. -/
theorem onlyFromBody_iff (body : List UInt8) :
    c.OnlyFromBody o body ts ↔ BodyDetermined o body ts := by
  by_cases hb : body = []
  · subst hb
    exact ⟨fun _ => .inl rfl, fun _ _ _ => rfl⟩
  by_cases hheader : sizeof UInt64 + sizeof UInt64 ≤ body.length
  · by_cases hts : TraceDetermined o ts (body.drop (sizeof UInt64 + sizeof UInt64))
    · refine ⟨fun _ => .inr ⟨hheader, hts⟩, fun _ junk₁ junk₂ => ?_⟩
      obtain ⟨results, hresults⟩ := readTrace_same o ts hts
      obtain ⟨hc₁, hu₁, hf₁, -⟩ := construct_reads o body junk₁
      obtain ⟨hc₂, hu₂, hf₂, -⟩ := construct_reads o body junk₂
      have hall : ∀ junk, (rawBytes junk (sizeof UInt64)).drop body.length = [] := fun junk =>
        List.drop_of_length_le (by rw [rawBytes_length]; omega)
      have hrest : ∀ junk, (rawBytes junk (sizeof UInt64)).drop (body.drop (sizeof UInt64)).length =
          [] := fun junk =>
        List.drop_of_length_le (by rw [rawBytes_length, List.length_drop]; omega)
      rw [hall] at hc₁ hc₂
      rw [hrest] at hu₁ hu₂
      rw [decode_eq o c ts hb, decode_eq o c ts hb]
      simp only [hc₁, hc₂, hu₁, hu₂, hresults _ hf₁, hresults _ hf₂]
    · refine ⟨fun hsame => ?_, fun hdet => absurd (hdet.resolve_left hb).2 hts⟩
      obtain ⟨junk₁, junk₂, hne⟩ := readTrace_differs o ts hts
      have heq := hsame (fun i => junk₁ (i - (sizeof UInt64 + sizeof UInt64)))
        (fun i => junk₂ (i - (sizeof UInt64 + sizeof UInt64)))
      obtain ⟨-, -, hf₁, hj₁⟩ := construct_reads o body
        fun i => junk₁ (i - (sizeof UInt64 + sizeof UInt64))
      obtain ⟨-, -, hf₂, hj₂⟩ := construct_reads o body
        fun i => junk₂ (i - (sizeof UInt64 + sizeof UInt64))
      rw [shifted_junk] at hj₁ hj₂
      rw [decode_eq o c ts hb, decode_eq o c ts hb] at heq
      exact absurd (congrArg Decoded.reads (Option.some.inj heq)) (hne _ _ hf₁ hf₂ hj₁ hj₂)
  · refine ⟨fun hsame => ?_, fun hdet => absurd (hdet.resolve_left hb).1 hheader⟩
    -- bytes of the uid are missing
    have hlt : (body.drop (sizeof UInt64)).length < sizeof UInt64 := by
      rw [List.length_drop]
      have hpos : 0 < sizeof UInt64 := by decide
      omega
    obtain ⟨bs, hbs⟩ := exists_missing (Nat.le_of_lt hlt)
    obtain ⟨junk₁, junk₂, cs, hcs, hdiff, hj₁, hj₂⟩ := exists_two_fills hlt hbs
    have heq := hsame (fun i => junk₁ (i - sizeof UInt64)) (fun i => junk₂ (i - sizeof UInt64))
    obtain ⟨-, hu₁, -, -⟩ := construct_reads o body fun i => junk₁ (i - sizeof UInt64)
    obtain ⟨-, hu₂, -, -⟩ := construct_reads o body fun i => junk₂ (i - sizeof UInt64)
    rw [shifted_junk, hj₁, List.take_of_length_le (Nat.le_of_lt hlt)] at hu₁
    rw [shifted_junk, hj₂, List.take_of_length_le (Nat.le_of_lt hlt)] at hu₂
    rw [decode_eq o c ts hb, decode_eq o c ts hb] at heq
    have huid := congrArg Decoded.uid (Option.some.inj heq)
    simp only [hu₁, hu₂] at huid
    exact absurd huid (valueOf_ne o hbs hcs hdiff)

/-- In a body of one byte the uid is what the memory held. -/
theorem raw_uid_of_short_body :
    ¬ (Connection.construct Nat).OnlyFromBody .little [1] [] := by
  intro h
  have huid := congrArg (Option.map Decoded.uid) (h (fun _ => 0) fun _ => 1)
  exact absurd huid (by decide)

end Connection

end Lnetlib
