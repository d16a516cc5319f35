import Lnetlib.Stream.Truncated
import Lnetlib.Stream.Proofs.StringsProofs

/-!
# Reads at the end of a body

A read takes what is left, and stores nothing more. Since a read that comes short leaves nothing, the
values that are read depend on the bytes left only, whether the stream is good or not (`Follows`).
-/

namespace Lnetlib

open Bytes

variable (o : ByteOrder)

namespace Istream

/-- The bytes `rest` are left in the stream, and none if a read has come short. -/
structure Follows (is : Istream) (rest : List UInt8) : Prop where
  good : is.good = true ∨ rest = []
  rest : is.rest = rest

variable {is : Istream} {rest : List UInt8}

theorem HasLeft.follows (h : is.HasLeft rest) : is.Follows rest := ⟨.inl h.good, h.rest⟩

theorem Follows.uninit (h : is.Follows rest) (n : Nat) : (is.uninit n).2.Follows rest :=
  ⟨h.good, h.rest⟩

/-- What a read stores, and what it leaves. -/
theorem Follows.read (h : is.Follows rest) (dst : List UInt8) :
    (is.read dst).1 = rest.take dst.length ++ dst.drop rest.length ∧
      (is.read dst).2.Follows (rest.drop dst.length) ∧ (is.read dst).2.junk = is.junk := by
  obtain ⟨hgood, hrest⟩ := h
  by_cases hg : is.good = true
  · have hdrop : dst.drop (rest.take dst.length).length = dst.drop rest.length := by
      rw [List.length_take]
      by_cases hle : rest.length ≤ dst.length
      · rw [Nat.min_eq_right hle]
      · have hle' : dst.length ≤ rest.length := by omega
        rw [Nat.min_eq_left hle', List.drop_length, List.drop_of_length_le hle']
    unfold Istream.read
    rw [if_pos hg, hrest]
    simp only [hdrop]
    refine ⟨trivial, ⟨?_, rfl⟩, trivial⟩
    by_cases hle : dst.length ≤ rest.length
    · left
      simp [Istream.good, hle]
    · right
      exact List.drop_of_length_le (by omega)
  · have hnil : rest = [] := hgood.resolve_left hg
    subst hnil
    unfold Istream.read
    rw [if_neg hg]
    refine ⟨by rw [List.take_nil, List.nil_append, List.length_nil, List.drop_zero], ?_, rfl⟩
    rw [List.drop_nil]
    exact ⟨.inr rfl, hrest⟩

/-- A read that comes short leaves the stream in an error state. -/
theorem HasLeft.read_short (h : is.HasLeft rest) {dst : List UInt8} (hlt : rest.length < dst.length) :
    (is.read dst).2.eofbit = true ∧ (is.read dst).2.failbit = true := by
  have hlen : rest.length ≤ dst.length := by omega
  unfold Istream.read
  rw [if_pos h.good, h.rest, List.take_of_length_le hlen]
  simp [hlt]

/-- A read for which there is enough leaves the stream good. -/
theorem HasLeft.read_good (h : is.HasLeft rest) {dst : List UInt8} (hle : dst.length ≤ rest.length) :
    (is.read dst).2.HasLeft (rest.drop dst.length) := by
  unfold Istream.read
  rw [if_pos h.good, h.rest]
  refine ⟨?_, rfl⟩
  simp [Istream.good, hle]

end Istream

/-- What a read over the reserved payload `dst` gives. -/
structure Istream.PayloadRead (rest dst data : List UInt8) (is' : Istream) : Prop where
  data_eq : data = rest.take dst.length ++ dst.drop rest.length
  rest_eq : is'.rest = rest.drop dst.length
  short : rest.length < dst.length → is'.eofbit = true ∧ is'.failbit = true
  full : dst.length ≤ rest.length → is'.good = true

namespace Istream

variable {is is' : Istream} {rest dst data : List UInt8}

theorem HasLeft.payloadRead (h : is.HasLeft rest) (dst : List UInt8) :
    PayloadRead rest dst (is.read dst).1 (is.read dst).2 := by
  obtain ⟨hdata, hfollows, -⟩ := h.follows.read dst
  exact ⟨hdata, hfollows.rest, fun hlt => h.read_short hlt, fun hle => (h.read_good hle).good⟩

theorem PayloadRead.length_data (h : PayloadRead rest dst data is') : data.length = dst.length := by
  rw [h.data_eq, List.length_append, List.length_take, List.length_drop]
  omega

end Istream

namespace SizedReader

variable {U : Type} [Unsigned U] {is : Istream} {rest : List UInt8} (memory : Memory)

end SizedReader

end Lnetlib
