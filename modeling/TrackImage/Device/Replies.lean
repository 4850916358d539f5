import TrackImage.Stream.ByteSource

/-!
# A source of given replies

A source that answers reads from a finite list of replies, one reply for each
read, and has nothing more to give after the last. It notes how much each read
asked for. Every finite conversation with a source can be written down so.
-/

namespace TrackImage.Device

inductive Reply
  | gives (bytes : List UInt8)
  | fails (error : IoError)
  deriving DecidableEq, Repr

structure Replies where
  coming : List Reply
  /-- How much each read asked for. -/
  asked : List Nat := []
  /-- Bytes given so far. -/
  position : Nat := 0
  deriving DecidableEq, Repr

namespace Replies

/-- A reply never gives more than was asked for. -/
def read (replies : Replies) (room : Nat) : Except IoError (List UInt8) × Replies :=
  match replies.coming with
  | [] => (.ok [], { replies with asked := replies.asked ++ [room] })
  | .gives bytes :: rest =>
      (.ok (bytes.take room),
        ⟨rest, replies.asked ++ [room], replies.position + (bytes.take room).length⟩)
  | .fails error :: rest => (.error error, ⟨rest, replies.asked ++ [room], replies.position⟩)

/-- Moving is possible and without effect on the replies. -/
def seek (replies : Replies) : Motion → Except IoError Nat × Replies
  | .toStart => (.ok 0, { replies with position := 0 })
  | .toEnd => (.ok replies.position, replies)
  | .forward distance =>
      (.ok (replies.position + distance),
        { replies with position := replies.position + distance })

theorem read_length_le {replies next : Replies} {room : Nat} {bytes : List UInt8}
    (answer : replies.read room = (.ok bytes, next)) : bytes.length ≤ room := by
  unfold read at answer
  split at answer
  · simp only [Prod.mk.injEq, Except.ok.injEq] at answer
    simp [← answer.1]
  · simp only [Prod.mk.injEq, Except.ok.injEq] at answer
    rw [← answer.1, List.length_take]
    exact Nat.min_le_left _ _
  · simp at answer

theorem coming_le (replies : Replies) (room : Nat) :
    (replies.read room).2.coming.length ≤ replies.coming.length := by
  unfold read
  split
  · exact Nat.le_refl _
  · next same =>
      rw [same]
      exact Nat.le_succ _
  · next same =>
      rw [same]
      exact Nat.le_succ _

theorem coming_lt {replies next : Replies} {room : Nat} {error : IoError}
    (answer : replies.read room = (.error error, next)) :
    next.coming.length < replies.coming.length := by
  unfold read at answer
  split at answer
  · simp at answer
  · simp at answer
  · next same =>
      simp only [Prod.mk.injEq] at answer
      rw [← answer.2, same]
      exact Nat.lt_succ_self _

instance : ByteSource Replies where
  read := read
  seek := seek
  patience replies := replies.coming.length
  read_length_le := read_length_le
  patience_le := coming_le
  patience_lt answer _ := coming_lt answer

end Replies

end TrackImage.Device
