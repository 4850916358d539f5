import TrackImage.Proofs.Stream.Deliveries
import TrackImage.Stream.Batcher

/-!
# What a batcher hands on

A call of a batcher delivers some pieces to the sink behind it. When the call
succeeds, the pieces and what is left pending are what was pending before and
the bytes of the call, in this order; when it fails, the pieces up to the one
that failed are the front of that.
-/

namespace TrackImage.Batcher

variable {τ : Type} [ByteSink τ] {batcher next : Batcher τ} {bytes : List UInt8} {error : IoError}

theorem drain_eq_ok (drained : batcher.drain = (.ok (), next)) :
    ∃ inner, deliver batcher.inner batcher.pendingBytes = (.ok (), inner) ∧
      next = { batcher with inner, pending := .empty } := by
  unfold drain at drained
  split at drained
  · next inner delivered => exact ⟨inner, delivered, (Prod.mk.inj drained).2.symm⟩
  · cases drained

/-- A drain that fails keeps everything pending. -/
theorem drain_eq_error (failed : batcher.drain = (.error error, next)) :
    ∃ inner, deliver batcher.inner batcher.pendingBytes = (.error error, inner) ∧
      next = { batcher with inner } := by
  unfold drain at failed
  split at failed
  · cases failed
  · next refusal inner refused =>
      obtain ⟨same, rfl⟩ := Prod.mk.inj failed
      cases same
      exact ⟨inner, refused, rfl⟩

/-- The ways a write can go. -/
inductive Passes (batcher : Batcher τ) (bytes : List UInt8) :
    Except IoError Unit × Batcher τ → Prop where
  | through (pieces : List (List UInt8)) {next : Batcher τ}
      (delivered : deliverEach batcher.inner pieces = (.ok (), next.inner))
      (ordered : pieces.flatten ++ next.pendingBytes = batcher.pendingBytes ++ bytes)
      (accepted : next.accepted = batcher.accepted) (capacity : next.capacity = batcher.capacity)
      (room : next.pendingBytes.length < next.capacity) : Passes batcher bytes (.ok (), next)
  | stuck (pieces : List (List UInt8)) {error : IoError} {next : Batcher τ}
      (refused : deliverEach batcher.inner pieces = (.error error, next.inner))
      (front : pieces.flatten <+: batcher.pendingBytes ++ bytes) :
      Passes batcher bytes (.error error, next)

/-- A write that goes straight on delivers what is pending, then its own bytes. -/
theorem passes_bypass (batcher : Batcher τ) (bytes : List UInt8) :
    Passes batcher bytes (batcher.bypass bytes) := by
  unfold bypass
  rcases outcome : batcher.drain with ⟨error | _, drained⟩
  · obtain ⟨inner, refused, rfl⟩ := drain_eq_error outcome
    refine .stuck [batcher.pendingBytes] ?_ ?_
    · rw [deliverEach_singleton, refused]
    · rw [List.flatten_singleton]
      exact List.prefix_append _ _
  · obtain ⟨inner, drained, rfl⟩ := drain_eq_ok outcome
    have both : deliverEach batcher.inner [batcher.pendingBytes, bytes] = deliver inner bytes := by
      rw [deliverEach_cons, drained]
      exact deliverEach_singleton inner bytes
    have joined : [batcher.pendingBytes, bytes].flatten = batcher.pendingBytes ++ bytes := by
      simp only [List.flatten_cons, List.flatten_nil, List.append_nil]
    rcases last : deliver inner bytes with ⟨error | _, inner'⟩
    · simp only [last]
      exact .stuck _ (both.trans last) (joined ▸ List.prefix_rfl)
    · simp only [last]
      refine .through _ (both.trans last) ?_ rfl rfl batcher.capacity_pos
      rw [joined]
      exact List.append_nil _

/-- Bytes that are kept are delivered together with the rest when that makes it too much. -/
theorem passes_keep (batcher : Batcher τ) (bytes : List UInt8) :
    Passes batcher bytes (batcher.keep bytes).drainIfFull := by
  unfold drainIfFull
  split
  · rcases outcome : (batcher.keep bytes).drain with ⟨error | _, drained⟩
    · obtain ⟨inner, refused, rfl⟩ := drain_eq_error outcome
      rw [pendingBytes_keep] at refused
      refine .stuck [batcher.pendingBytes ++ bytes] ?_ ?_
      · rw [deliverEach_singleton]
        exact refused
      · simp only [List.flatten_singleton, List.prefix_rfl]
    · obtain ⟨inner, delivered, rfl⟩ := drain_eq_ok outcome
      rw [pendingBytes_keep] at delivered
      refine .through [batcher.pendingBytes ++ bytes] ?_ ?_ rfl rfl batcher.capacity_pos
      · rw [deliverEach_singleton]
        exact delivered
      · rw [List.flatten_singleton]
        exact List.append_nil _
  · next room =>
      refine .through [] rfl ?_ rfl rfl (Nat.lt_of_not_le room)
      rw [pendingBytes_keep]
      rfl

theorem passes_pass (batcher : Batcher τ) (bytes : List UInt8) :
    Passes batcher bytes (batcher.pass bytes) := by
  unfold pass
  split
  · exact passes_bypass batcher bytes
  · exact passes_keep batcher bytes

/-- A write that succeeds accepts all its bytes and leaves less than the capacity pending. -/
theorem write_eq_ok {count : Nat} (done : batcher.write bytes = (.ok count, next)) :
    count = bytes.length ∧ next.accepted = batcher.accepted + bytes.length ∧
      next.capacity = batcher.capacity ∧ next.pendingBytes.length < next.capacity ∧
      ∃ pieces, deliverEach batcher.inner pieces = (.ok (), next.inner) ∧
        pieces.flatten ++ next.pendingBytes = batcher.pendingBytes ++ bytes := by
  have went := batcher.passes_pass bytes
  unfold write at done
  split at done
  · next passed outcome =>
      rw [outcome] at went
      obtain ⟨counted, rfl⟩ := Prod.mk.inj done
      cases went with
      | through pieces delivered ordered accepted capacity room =>
          refine ⟨(Except.ok.inj counted).symm, ?_, capacity, room, pieces, delivered, ordered⟩
          exact congrArg (· + bytes.length) accepted
  · cases done

theorem write_eq_error (failed : batcher.write bytes = (.error error, next)) :
    ∃ pieces, deliverEach batcher.inner pieces = (.error error, next.inner) ∧
      pieces.flatten <+: batcher.pendingBytes ++ bytes := by
  have went := batcher.passes_pass bytes
  unfold write at failed
  split at failed
  · cases failed
  · next stopped outcome =>
      rw [outcome] at went
      obtain ⟨same, rfl⟩ := Prod.mk.inj failed
      cases same
      cases went with
      | stuck pieces refused front => exact ⟨pieces, refused, front⟩

/-- A flush that succeeds leaves nothing pending. -/
theorem flush_eq_ok (done : batcher.flush = (.ok (), next)) :
    next.pendingBytes = [] ∧ next.accepted = batcher.accepted ∧
      next.capacity = batcher.capacity ∧
      ∃ inner, deliver batcher.inner batcher.pendingBytes = (.ok (), inner) ∧
        ByteSink.flush inner = (.ok (), next.inner) := by
  unfold flush at done
  split at done
  · cases done
  · next drained outcome =>
      obtain ⟨inner, delivered, rfl⟩ := drain_eq_ok outcome
      obtain ⟨flushed, rfl⟩ := Prod.mk.inj done
      exact ⟨rfl, rfl, rfl, inner, delivered, Prod.ext flushed rfl⟩

theorem flush_eq_error (failed : batcher.flush = (.error error, next)) :
    deliver batcher.inner batcher.pendingBytes = (.error error, next.inner) ∨
      ∃ inner, deliver batcher.inner batcher.pendingBytes = (.ok (), inner) ∧
        ByteSink.flush inner = (.error error, next.inner) := by
  unfold flush at failed
  split at failed
  · next refusal stopped outcome =>
      obtain ⟨inner, refused, rfl⟩ := drain_eq_error outcome
      obtain ⟨same, rfl⟩ := Prod.mk.inj failed
      cases same
      exact .inl refused
  · next drained outcome =>
      obtain ⟨inner, delivered, rfl⟩ := drain_eq_ok outcome
      obtain ⟨flushed, rfl⟩ := Prod.mk.inj failed
      exact .inr ⟨inner, delivered, Prod.ext flushed rfl⟩

/-- A flush hands what is pending on as the last piece. -/
theorem flush_inner (batcher : Batcher τ) :
    (batcher.flush.1, batcher.flush.2.inner) = deliverAll batcher.inner [batcher.pendingBytes] := by
  unfold flush drain
  rw [deliverAll, deliverEach_singleton]
  rcases deliver batcher.inner batcher.pendingBytes with ⟨error | _, inner⟩ <;> rfl

/-! ## Deliveries through a batcher -/

/-- Delivering to a batcher is writing to it once, if there is anything to write. -/
theorem deliver_eq_write (batcher : Batcher τ) (something : bytes ≠ []) :
    deliver batcher bytes = ((batcher.write bytes).1.map fun _ => (), (batcher.write bytes).2) := by
  rcases written : batcher.write bytes with ⟨error | count, next⟩
  · have lasting := batcher.write_not_passing bytes (congrArg Prod.fst written)
    exact deliver_of_write_error something written lasting
  · obtain ⟨rfl, -⟩ := write_eq_ok written
    exact deliver_of_write_whole something written

/-- A batcher accepts all that is delivered to it. -/
theorem accepted_of_deliverEach {pieces : List (List UInt8)}
    (delivered : deliverEach batcher pieces = (.ok (), next)) :
    next.accepted = batcher.accepted + pieces.flatten.length := by
  induction pieces generalizing batcher with
  | nil =>
      cases delivered
      rfl
  | cons piece rest ih =>
      rw [deliverEach_cons] at delivered
      rw [List.flatten_cons, List.length_append, ← Nat.add_assoc]
      by_cases nothing : piece = []
      · rw [nothing, deliver_nil] at delivered
        rw [nothing]
        exact ih delivered
      · rw [deliver_eq_write batcher nothing] at delivered
        rcases written : batcher.write piece with ⟨error | count, middle⟩
        · rw [written] at delivered
          cases delivered
        · rw [written] at delivered
          obtain ⟨-, accepted, -⟩ := write_eq_ok written
          rw [ih delivered, accepted]

/-- What deliveries to a batcher come down to for the sink behind it. -/
inductive Relays (batcher : Batcher τ) (bytes : List UInt8) :
    Except IoError Unit × Batcher τ → Prop where
  | through (recut : List (List UInt8)) {next : Batcher τ}
      (delivered : deliverEach batcher.inner recut = (.ok (), next.inner))
      (ordered : recut.flatten ++ next.pendingBytes = batcher.pendingBytes ++ bytes) :
      Relays batcher bytes (.ok (), next)
  | stuck (recut : List (List UInt8)) {error : IoError} {next : Batcher τ}
      (refused : deliverEach batcher.inner recut = (.error error, next.inner))
      (front : recut.flatten <+: batcher.pendingBytes ++ bytes) :
      Relays batcher bytes (.error error, next)

theorem Relays.nothing (batcher : Batcher τ) : Relays batcher [] (.ok (), batcher) :=
  .through [] rfl (List.append_nil _).symm

theorem relays_deliver (batcher : Batcher τ) (bytes : List UInt8) :
    Relays batcher bytes (deliver batcher bytes) := by
  by_cases nothing : bytes = []
  · rw [nothing, deliver_nil]
    exact .nothing batcher
  · rw [deliver_eq_write batcher nothing]
    rcases written : batcher.write bytes with ⟨error | count, next⟩
    · obtain ⟨pieces, refused, front⟩ := write_eq_error written
      exact .stuck pieces refused front
    · obtain ⟨-, -, -, -, pieces, delivered, ordered⟩ := write_eq_ok written
      exact .through pieces delivered ordered

theorem relays_deliverEach (batcher : Batcher τ) (pieces : List (List UInt8)) :
    Relays batcher pieces.flatten (deliverEach batcher pieces) := by
  induction pieces generalizing batcher with
  | nil => exact .nothing batcher
  | cons piece rest ih =>
      have first := batcher.relays_deliver piece
      rw [deliverEach_cons, List.flatten_cons]
      generalize deliver batcher piece = outcome at first
      cases first with
      | stuck recut refused front =>
          refine .stuck recut refused (front.trans ?_)
          rw [← List.append_assoc]
          exact List.prefix_append _ _
      | @through recut next delivered ordered =>
          have behind := ih next
          change Relays batcher _ (deliverEach next rest)
          generalize deliverEach next rest = outcome at behind
          have total {more : List (List UInt8)} : (recut ++ more).flatten =
              recut.flatten ++ more.flatten := List.flatten_append
          cases behind with
          | through more delivered' ordered' =>
              have handed := (deliverEach_append_of_ok delivered).trans delivered'
              refine .through (recut ++ more) handed ?_
              rw [total, List.append_assoc, ordered', ← List.append_assoc, ordered,
                List.append_assoc]
          | stuck more refused front =>
              refine .stuck (recut ++ more) ((deliverEach_append_of_ok delivered).trans refused) ?_
              rw [total, ← List.append_assoc, ← ordered, List.append_assoc]
              exact (List.prefix_append_right_inj _).mpr front

/--
For the sink, a pass through a batcher is the same pass with its output cut into
other pieces: the front of it if one of them fails, and all of it otherwise.
-/
theorem deliverAll_inner (batcher : Batcher τ) (pieces : List (List UInt8)) :
    ∃ recut, ((deliverAll batcher pieces).1, (deliverAll batcher pieces).2.inner) =
        deliverAll batcher.inner recut ∧
      recut.flatten <+: batcher.pendingBytes ++ pieces.flatten ∧
      ((deliverEach batcher.inner recut).1 = .ok () →
        recut.flatten = batcher.pendingBytes ++ pieces.flatten) := by
  have relayed := batcher.relays_deliverEach pieces
  rw [deliverAll]
  generalize deliverEach batcher pieces = outcome at relayed
  cases relayed with
  | @stuck recut error next refused front =>
      refine ⟨recut, (deliverAll_of_error refused).symm, front, ?_⟩
      rw [refused]
      intro impossible
      cases impossible
  | @through recut next delivered ordered =>
      have whole : (recut ++ [next.pendingBytes]).flatten =
          batcher.pendingBytes ++ pieces.flatten := by
        rw [List.flatten_append, List.flatten_singleton, ordered]
      refine ⟨recut ++ [next.pendingBytes], ?_, whole ▸ List.prefix_rfl, fun _ => whole⟩
      rw [deliverAll, deliverEach_append_of_ok delivered]
      exact next.flush_inner

end TrackImage.Batcher
