/-!
# How a batcher cuts chunks

A batcher in front of a sink that takes everything is a way to cut chunks into
pieces. A piece is smaller than the capacity only if a chunk that goes straight
on has to wait for it, or if it is flushed at the end. So every capacity's worth
of bytes pays for two pieces at most, and for one if no chunk goes straight on.
-/

namespace TrackImage.Batcher

/-! ## Pieces -/

/-- Bytes that are handed on as one piece, or not at all if there are none. -/
def piece : List UInt8 → List (List UInt8)
  | [] => []
  | byte :: rest => [byte :: rest]

/-- Pieces handed on in order, and what is pending behind them. -/
structure Cutting where
  pieces : List (List UInt8)
  rest : List UInt8

/-- What is offered when the rest is flushed as well. -/
def Cutting.offers (cutting : Cutting) : List (List UInt8) :=
  cutting.pieces ++ piece cutting.rest

/-- How the write of one chunk cuts what is pending and the chunk. -/
def cut (capacity : Nat) (pending chunk : List UInt8) : Cutting :=
  if capacity ≤ chunk.length then ⟨piece pending ++ [chunk], []⟩
  else if capacity ≤ (pending ++ chunk).length then ⟨[pending ++ chunk], []⟩
  else ⟨[], pending ++ chunk⟩

/-- How the writes of some chunks do. -/
def cuts (capacity : Nat) (pending : List UInt8) : List (List UInt8) → Cutting
  | [] => ⟨[], pending⟩
  | chunk :: chunks =>
      let others := cuts capacity (cut capacity pending chunk).rest chunks
      ⟨(cut capacity pending chunk).pieces ++ others.pieces, others.rest⟩

variable {capacity : Nat} {pending chunk : List UInt8} {chunks : List (List UInt8)}

@[simp] theorem flatten_piece (bytes : List UInt8) : (piece bytes).flatten = bytes := by
  cases bytes with
  | nil => rfl
  | cons byte rest => exact List.flatten_singleton

theorem length_piece_le (bytes : List UInt8) : (piece bytes).length ≤ 1 := by
  cases bytes with
  | nil => exact Nat.zero_le _
  | cons byte rest => exact Nat.le_refl _

theorem not_mem_piece (bytes : List UInt8) : [] ∉ piece bytes := by
  cases bytes with
  | nil => nofun
  | cons byte rest => simp [piece]

theorem piece_of_le {bytes : List UInt8} (positive : 0 < capacity)
    (large : capacity ≤ bytes.length) : piece bytes = [bytes] := by
  cases bytes with
  | nil => exact absurd large (Nat.not_le_of_lt positive)
  | cons byte rest => rfl

/-- Cutting neither loses nor reorders bytes. -/
theorem flatten_cut : (cut capacity pending chunk).pieces.flatten ++
    (cut capacity pending chunk).rest = pending ++ chunk := by
  unfold cut
  split
  · simp
  · split <;> simp

theorem flatten_cuts : (cuts capacity pending chunks).pieces.flatten ++
    (cuts capacity pending chunks).rest = pending ++ chunks.flatten := by
  induction chunks generalizing pending with
  | nil => simp [cuts]
  | cons chunk chunks ih =>
      rw [cuts, List.flatten_append, List.append_assoc, ih, ← List.append_assoc, flatten_cut,
        List.flatten_cons, List.append_assoc]

/-! ## How large and how many they are -/

/--
Pieces that are as long as the capacity, but for such as are handed on directly
before a chunk that long.
-/
inductive Spaced (capacity : Nat) (chunks : List (List UInt8)) : List (List UInt8) → Prop where
  | nil : Spaced capacity chunks []
  | full {piece : List UInt8} {pieces : List (List UInt8)} (large : capacity ≤ piece.length)
      (others : Spaced capacity chunks pieces) : Spaced capacity chunks (piece :: pieces)
  | ahead {piece chunk : List UInt8} {pieces : List (List UInt8)} (something : piece ≠ [])
      (member : chunk ∈ chunks) (long : capacity ≤ chunk.length)
      (others : Spaced capacity chunks pieces) : Spaced capacity chunks (piece :: chunk :: pieces)

namespace Spaced

variable {pieces more : List (List UInt8)}

theorem append (front : Spaced capacity chunks pieces) (back : Spaced capacity chunks more) :
    Spaced capacity chunks (pieces ++ more) := by
  induction front with
  | nil => exact back
  | full large _ ih => exact .full large ih
  | ahead something member long _ ih => exact .ahead something member long ih

theorem mono {others : List (List UInt8)} (spaced : Spaced capacity chunks pieces)
    (fewer : chunks ⊆ others) : Spaced capacity others pieces := by
  induction spaced with
  | nil => exact .nil
  | full large _ ih => exact .full large ih
  | ahead something member long _ ih => exact .ahead something (fewer member) long ih

theorem not_mem_nil (spaced : Spaced capacity chunks pieces) (positive : 0 < capacity) :
    [] ∉ pieces := by
  induction spaced with
  | nil => nofun
  | full large _ ih =>
      intro member
      rcases List.mem_cons.mp member with rfl | later
      · exact Nat.not_le_of_lt positive large
      · exact ih later
  | ahead something _ long _ ih =>
      intro member
      rcases List.mem_cons.mp member with rfl | later
      · exact something rfl
      · rcases List.mem_cons.mp later with rfl | later
        · exact Nat.not_le_of_lt positive long
        · exact ih later

/-- A small piece stands directly before a long chunk. -/
theorem large_or_ahead (spaced : Spaced capacity chunks pieces) {front behind : List (List UInt8)}
    {piece : List UInt8} (place : pieces = front ++ piece :: behind) :
    capacity ≤ piece.length ∨
      ∃ chunk ∈ chunks, capacity ≤ chunk.length ∧ behind.head? = some chunk := by
  induction spaced generalizing front with
  | nil => simp at place
  | full large _ ih =>
      cases front with
      | nil =>
          cases place
          exact .inl large
      | cons _ front =>
          cases place
          exact ih rfl
  | ahead _ member long _ ih =>
      cases front with
      | nil =>
          cases place
          exact .inr ⟨_, member, long, rfl⟩
      | cons _ front =>
          cases front with
          | nil =>
              cases place
              exact .inl long
          | cons _ front =>
              cases place
              exact ih rfl

/-- Every two writes are paid for by a capacity's worth of bytes. -/
theorem length_le (spaced : Spaced capacity chunks pieces) (positive : 0 < capacity) :
    pieces.length ≤ 2 * (pieces.flatten.length / capacity) := by
  have paid {bytes : List UInt8} (large : capacity ≤ bytes.length) (further : Nat) :
      further / capacity + 1 ≤ (bytes.length + further) / capacity := by
    rw [← Nat.add_div_right _ positive]
    exact Nat.div_le_div_right (by omega)
  induction spaced with
  | nil => exact Nat.zero_le _
  | @full piece pieces large _ ih =>
      have more := paid large pieces.flatten.length
      rw [List.length_cons, List.flatten_cons, List.length_append]
      omega
  | @ahead piece chunk pieces _ _ long _ ih =>
      -- The chunk pays for itself and for the piece that was in its way.
      have more := paid long pieces.flatten.length
      have whole : (chunk.length + pieces.flatten.length) / capacity ≤
          (piece.length + (chunk.length + pieces.flatten.length)) / capacity :=
        Nat.div_le_div_right (Nat.le_add_left _ _)
      simp only [List.length_cons, List.flatten_cons, List.length_append]
      omega

/-- Where no chunk goes straight on, each write is paid for by itself. -/
theorem length_le_of_short (spaced : Spaced capacity chunks pieces) (positive : 0 < capacity)
    (short : ∀ chunk ∈ chunks, chunk.length < capacity) :
    pieces.length ≤ pieces.flatten.length / capacity := by
  rw [Nat.le_div_iff_mul_le positive]
  induction spaced with
  | nil => exact Nat.le_of_eq (Nat.zero_mul _)
  | full large _ ih =>
      rw [List.length_cons, List.flatten_cons, List.length_append, Nat.succ_mul, Nat.add_comm]
      exact Nat.add_le_add large ih
  | ahead _ member long => exact absurd (short _ member) (Nat.not_lt_of_le long)

end Spaced

theorem spaced_cut : Spaced capacity [chunk] (cut capacity pending chunk).pieces := by
  unfold cut
  split
  · next long =>
      cases pending with
      | nil => exact .full long .nil
      | cons byte rest => exact .ahead nofun (List.mem_singleton_self _) long .nil
  · split
    · next large => exact .full large .nil
    · exact .nil

theorem spaced_cuts : Spaced capacity chunks (cuts capacity pending chunks).pieces := by
  induction chunks generalizing pending with
  | nil => exact .nil
  | cons chunk chunks ih =>
      have first : Spaced capacity (chunk :: chunks) (cut capacity pending chunk).pieces :=
        spaced_cut.mono (by simp)
      exact first.append (ih.mono (List.subset_cons_self _ _))

/-- The writes that some chunks and a flush make. -/
theorem length_offers_le (positive : 0 < capacity) :
    (cuts capacity [] chunks).offers.length ≤ 2 * (chunks.flatten.length / capacity) + 1 ∧
      ((∀ chunk ∈ chunks, chunk.length < capacity) →
        (cuts capacity [] chunks).offers.length ≤ chunks.flatten.length / capacity + 1) := by
  have spaced : Spaced capacity chunks (cuts capacity [] chunks).pieces := spaced_cuts
  have last := length_piece_le (cuts capacity [] chunks).rest
  have within : (cuts capacity [] chunks).pieces.flatten.length ≤ chunks.flatten.length := by
    have whole := congrArg List.length (@flatten_cuts capacity [] chunks)
    rw [List.length_append, List.nil_append] at whole
    exact Nat.le_of_add_right_le (Nat.le_of_eq whole)
  have paid := @Nat.div_le_div_right _ _ capacity within
  rw [Cutting.offers, List.length_append]
  constructor
  · have pieces := spaced.length_le positive
    omega
  · intro short
    have pieces := spaced.length_le_of_short positive short
    omega

end TrackImage.Batcher
