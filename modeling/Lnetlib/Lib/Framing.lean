import Mathlib.Tactic.Common
import Mathlib.Logic.Relation
import Mathlib.Data.List.Infix

/-!
# FIFO channels and framed byte streams

A FIFO channel delivers what was sent, in order (`Fifo`). Over a byte stream the messages are framed: a
header of fixed width that says how long the body is, then the body. A reader that takes the stream apart
again, first a header and then the number of bytes it announces, always stands between two frames of the
stream or inside one; the lemmas say what it reads next, given the frames it has read.
-/

namespace Framing

/-- A channel: what was sent and what was delivered. -/
structure Fifo (α : Type*) where
  sent : List α
  delivered : List α

/-- A channel is used by sending, and by delivering the next message that was not delivered. -/
inductive Fifo.Step {α : Type*} : Fifo α → Fifo α → Prop where
  | send (q : Fifo α) (a : α) : Step q { q with sent := q.sent ++ [a] }
  | deliver (q : Fifo α) (a : α) (rest : List α) (h : q.sent = q.delivered ++ a :: rest) :
      Step q { q with delivered := q.delivered ++ [a] }

theorem Fifo.Step.isPrefix {α : Type*} {q q' : Fifo α} (h : Fifo.Step q q')
    (hq : q.delivered <+: q.sent) : q'.delivered <+: q'.sent := by
  cases h with
  | send a => exact hq.trans (List.prefix_append _ _)
  | deliver a rest h => exact ⟨rest, by rw [h, List.append_assoc, List.singleton_append]⟩

/-- What a channel has delivered is always a prefix of what was sent on it. -/
theorem Fifo.steps_isPrefix {α : Type*} {q q' : Fifo α} (h : Relation.ReflTransGen Fifo.Step q q')
    (hq : q.delivered <+: q.sent) : q'.delivered <+: q'.sent := by
  induction h with
  | refl => exact hq
  | tail _ hstep ih => exact hstep.isPrefix ih

variable {β : Type*} (header : Nat → List β)

/-- A body behind its header. -/
def frame (body : List β) : List β := header body.length ++ body

/-- Frames one after the other. -/
def frames (bodies : List (List β)) : List β := bodies.flatMap (frame header)

@[simp] theorem frames_nil : frames header [] = [] := rfl

@[simp] theorem frames_cons (b : List β) (bs : List (List β)) :
    frames header (b :: bs) = header b.length ++ (b ++ frames header bs) := by
  rw [frames, List.flatMap_cons, frame, List.append_assoc]
  rfl

theorem frames_append (bs cs : List (List β)) :
    frames header (bs ++ cs) = frames header bs ++ frames header cs := List.flatMap_append

variable {header} {w : Nat} {ds bs : List (List β)} {acc rest : List β}

/-- Between two frames, a header's width of bytes is the header of the next frame. -/
theorem next_header (hw : ∀ n, (header n).length = w) (hpos : 0 < w) (hd : ds <+: bs)
    (h : frames header ds ++ (acc ++ rest) = frames header bs) (hacc : acc.length = w) :
    ∃ b cs, bs = ds ++ b :: cs ∧ acc = header b.length ∧ rest = b ++ frames header cs := by
  obtain ⟨es, rfl⟩ := hd
  rw [frames_append] at h
  have h := List.append_cancel_left h
  cases es with
  | nil =>
    have := congrArg List.length h
    simp only [List.length_append, frames_nil, List.length_nil] at this
    omega
  | cons b cs =>
    rw [frames_cons] at h
    obtain ⟨h1, h2⟩ := List.append_inj h (by rw [hacc, hw])
    exact ⟨b, cs, rfl, h1, h2⟩

/-- Behind a header, as many bytes as it announces are the body. -/
theorem next_body {b : List β} {cs : List (List β)}
    (h : frames header ds ++ (header b.length ++ (acc ++ rest)) = frames header (ds ++ b :: cs))
    (hacc : acc.length = b.length) : acc = b ∧ rest = frames header cs := by
  rw [frames_append, frames_cons] at h
  exact List.append_inj (List.append_cancel_left (List.append_cancel_left h)) hacc

/-- A reader that has taken all bytes of the stream and waits for a header has read all frames. -/
theorem all_read (hw : ∀ n, (header n).length = w) (hd : ds <+: bs)
    (h : frames header ds ++ acc = frames header bs) (hacc : acc.length < w) : ds = bs := by
  obtain ⟨es, rfl⟩ := hd
  rw [frames_append] at h
  have h := List.append_cancel_left h
  cases es with
  | nil => rw [List.append_nil]
  | cons b cs =>
    have hlen := congrArg List.length h
    rw [frames_cons, List.length_append, hw] at hlen
    omega

/-- A reader that waits for the rest of a body has not taken all bytes of the stream. -/
theorem not_all_read {b : List β} {cs : List (List β)}
    (h : frames header ds ++ (header b.length ++ acc) = frames header (ds ++ b :: cs)) :
    b.length ≤ acc.length := by
  rw [frames_append, frames_cons] at h
  have h := congrArg List.length (List.append_cancel_left (List.append_cancel_left h))
  rw [List.length_append] at h
  omega

/-! ## The frames of any byte stream -/

/-- The bodies of the frames that are complete in a stream, the body of a frame being as long as its header
    of `w` bytes announces. -/
def bodies (announced : List β → Nat) (w : Nat) (bs : List β) : List (List β) :=
  if _h : 0 < w ∧ w ≤ bs.length then
    let size := announced (bs.take w)
    let rest := bs.drop w
    if size ≤ rest.length then rest.take size :: bodies announced w (rest.drop size) else []
  else []
termination_by bs.length
decreasing_by
  simp only [List.length_drop]
  omega

/-- The bodies when `n` bytes of a body come first. -/
def bodyThen (announced : List β → Nat) (w n : Nat) (bs : List β) : List (List β) :=
  if n ≤ bs.length then bs.take n :: bodies announced w (bs.drop n) else []

section

variable {announced : List β → Nat} {hd b tl : List β} {n : Nat}

theorem bodies_header (hpos : 0 < w) (hhd : hd.length = w) :
    bodies announced w (hd ++ tl) = bodyThen announced w (announced hd) tl := by
  have hlen : 0 < w ∧ w ≤ (hd ++ tl).length := by
    rw [List.length_append]
    omega
  rw [bodies, dif_pos hlen, ← hhd, List.take_left, List.drop_left]
  rfl

theorem bodyThen_body (hb : b.length = n) :
    bodyThen announced w n (b ++ tl) = b :: bodies announced w tl := by
  have hle : n ≤ (b ++ tl).length := by
    rw [List.length_append]
    omega
  rw [bodyThen, if_pos hle, ← hb, List.take_left, List.drop_left]

theorem bodies_nil : bodies announced w ([] : List β) = [] := by
  rw [bodies, dif_neg]
  rintro ⟨hpos, hle⟩
  rw [List.length_nil] at hle
  omega

/-- The bodies of frames are read back, if their headers announce their lengths. -/
theorem bodies_frames (hpos : 0 < w) (hw : ∀ n, (header n).length = w) (bs : List (List β))
    (hb : ∀ b ∈ bs, announced (header b.length) = b.length) :
    bodies announced w (frames header bs) = bs := by
  induction bs with
  | nil => exact bodies_nil
  | cons b bs ih =>
    have hhead := hb b List.mem_cons_self
    rw [frames_cons, bodies_header hpos (hw b.length), hhead, bodyThen_body rfl]
    rw [ih fun b' hb' => hb b' (List.mem_cons_of_mem b hb')]

/-- Frames in front of other bytes are read first. -/
theorem bodies_frames_append (hpos : 0 < w) (hw : ∀ n, (header n).length = w) (bs : List (List β))
    (hb : ∀ b ∈ bs, announced (header b.length) = b.length) :
    bodies announced w (frames header bs ++ tl) = bs ++ bodies announced w tl := by
  induction bs with
  | nil => rfl
  | cons b bs ih =>
    have hhead := hb b List.mem_cons_self
    have htail := ih fun b' hb' => hb b' (List.mem_cons_of_mem b hb')
    rw [frames_cons, List.append_assoc, bodies_header hpos (hw b.length), hhead, List.append_assoc,
      bodyThen_body rfl, htail, List.cons_append]

/-- A stream that is too short for a header has no frame. -/
theorem bodies_short {bs : List β} (h : bs.length < w) : bodies announced w bs = [] := by
  rw [bodies, dif_neg]
  omega

theorem bodyThen_short {bs : List β} (h : bs.length < n) : bodyThen announced w n bs = [] := by
  rw [bodyThen, if_neg]
  omega

/-- A header with less behind it than it announces. -/
theorem bodies_header_short (hpos : 0 < w) (hhd : hd.length = w) (h : tl.length < announced hd) :
    bodies announced w (hd ++ tl) = [] := by
  rw [bodies_header hpos hhd]
  exact bodyThen_short h

/-- A frame that is cut off has no body. -/
theorem bodies_take_frame (hpos : 0 < w) (hw : ∀ n, (header n).length = w)
    (hb : announced (header b.length) = b.length) (h : n < (frame header b).length) :
    bodies announced w ((frame header b).take n) = [] := by
  have hlen : (frame header b).length = w + b.length := by
    rw [frame, List.length_append, hw]
  by_cases hn : n < w
  · apply bodies_short
    rw [List.length_take]
    omega
  · have htake : (frame header b).take n = header b.length ++ b.take (n - w) := by
      rw [frame, List.take_append, hw, List.take_of_length_le (by rw [hw]; omega)]
    rw [htake]
    apply bodies_header_short hpos (hw _)
    rw [hb, List.length_take]
    omega

end

end Framing
