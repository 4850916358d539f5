import TrackImage.Proofs.Device.Writing
import TrackImage.Proofs.Stream.Batching

/-!
# Sinks that fill up

A sink whose writes follow no script takes bytes until it has no room, and then
always stops in the same way. So how bytes are cut into deliveries does not
matter to it: whether they are delivered one by one, all at once or through a
batcher, it takes the same bytes and gives the same answer in the end.
-/

namespace TrackImage.Device.Sink

/-- How many of so many bytes a sink takes in the end when its writes follow no script. -/
def room (sink : Sink) (offered : Nat) : Nat :=
  if sink.maxWrite = some 0 then 0
  else match sink.limit with
    | none => offered
    | some limit => min offered (limit - sink.taken.size)

/-- How a sink that takes nothing more turns down a write. -/
def standstill (sink : Sink) : IoError :=
  match sink.refusal? with
  | some refusal => refusal.error
  | none => .writeZero

/-- A sink has room for all bytes or for the first so many of them. -/
theorem room_cases (sink : Sink) :
    (∀ offered, sink.room offered = offered) ∨
      ∃ most, ∀ offered, sink.room offered = min offered most := by
  by_cases stuck : sink.maxWrite = some 0
  · refine .inr ⟨0, fun offered => ?_⟩
    rw [room, if_pos stuck, Nat.min_zero]
  · cases limited : sink.limit with
    | none =>
        refine .inl fun offered => ?_
        rw [room, if_neg stuck, limited]
    | some limit =>
        refine .inr ⟨limit - sink.taken.size, fun offered => ?_⟩
        rw [room, if_neg stuck, limited]

theorem room_le (sink : Sink) (offered : Nat) : sink.room offered ≤ offered := by
  rcases sink.room_cases with free | ⟨most, capped⟩
  · exact Nat.le_of_eq (free offered)
  · rw [capped]
    exact Nat.min_le_left _ _

@[simp] theorem room_zero (sink : Sink) : sink.room 0 = 0 :=
  Nat.le_zero.mp (sink.room_le 0)

/-- A sink never takes more at once than in the end. -/
theorem share_le_room (sink : Sink) (offered : Nat) : sink.share offered ≤ sink.room offered := by
  unfold share room
  by_cases stuck : sink.maxWrite = some 0
  · rw [if_pos stuck, stuck, Option.getD_some]
    cases sink.limit with
    | none => exact Nat.min_le_right _ _
    | some limit => exact Nat.le_trans (Nat.min_le_left _ _) (Nat.min_le_right _ _)
  · rw [if_neg stuck]
    cases sink.limit with
    | none => exact Nat.min_le_left _ _
    | some limit =>
        refine Nat.le_min.mpr ⟨?_, Nat.min_le_right _ _⟩
        exact Nat.le_trans (Nat.min_le_left _ _) (Nat.min_le_left _ _)

/-- A sink that takes nothing of something has no room. -/
theorem room_eq_zero_of_share {sink : Sink} {offered : Nat} (something : 0 < offered)
    (nothing : sink.share offered = 0) : sink.room offered = 0 := by
  unfold share at nothing
  unfold room
  by_cases stuck : sink.maxWrite = some 0
  · rw [if_pos stuck]
  · rw [if_neg stuck]
    have single : 0 < min offered (sink.maxWrite.getD offered) := by
      cases most : sink.maxWrite with
      | none => exact Nat.lt_min.mpr ⟨something, something⟩
      | some most' =>
          have positive : most' ≠ 0 := fun zero => stuck (by rw [most, zero])
          exact Nat.lt_min.mpr ⟨something, Nat.pos_of_ne_zero positive⟩
    cases limited : sink.limit with
    | none =>
        rw [limited] at nothing
        exact absurd nothing (Nat.ne_of_gt single)
    | some limit =>
        rw [limited] at nothing
        simp only at nothing ⊢
        omega

/-- A sink that turns a write down has no room. -/
theorem room_eq_zero_of_refusal {sink : Sink} {refusal : LastingError}
    (full : sink.refusal? = some refusal) (offered : Nat) : sink.room offered = 0 := by
  unfold refusal? at full
  cases limited : sink.limit with
  | none =>
      rw [limited] at full
      cases full
  | some limit =>
      rw [limited] at full
      change (if limit ≤ sink.taken.size then sink.whenFull else none) = some refusal at full
      split at full
      · next reached =>
          rw [room, limited]
          simp only [Nat.sub_eq_zero_of_le reached, Nat.min_zero, ite_self]
      · cases full

/-- Behind bytes that had room there is as much room left as before without them. -/
theorem room_add {sink : Sink} {out : List UInt8} {offered : Nat}
    (fits : out.length ≤ sink.room (out.length + offered)) (offers : List Nat) :
    sink.room (out.length + offered) = out.length + (sink.after out offers).room offered := by
  unfold room at fits ⊢
  rw [size_taken_after]
  change _ = _ + if sink.maxWrite = some 0 then 0 else match sink.limit with
    | none => offered
    | some limit => min offered (limit - (sink.taken.size + out.length))
  split
  · next stuck =>
      rw [if_pos stuck] at fits
      exact (Nat.le_zero.mp fits).symm
  · next moving =>
      rw [if_neg moving] at fits
      cases limited : sink.limit with
      | none => rfl
      | some limit =>
          rw [limited] at fits
          simp only at fits ⊢
          omega

theorem room_mono (sink : Sink) {offered more : Nat} (fewer : offered ≤ more) :
    sink.room offered ≤ sink.room more := by
  rcases sink.room_cases with free | ⟨most, capped⟩
  · rwa [free, free]
  · rw [capped, capped]
    omega

/-- Room that is too small for some bytes is no larger for more. -/
theorem room_add_of_lt {sink : Sink} {offered : Nat} (full : sink.room offered < offered)
    (more : Nat) : sink.room (offered + more) = sink.room offered := by
  rcases sink.room_cases with free | ⟨most, capped⟩
  · rw [free] at full
    exact absurd full (Nat.lt_irrefl _)
  · rw [capped] at full ⊢
    rw [capped]
    omega

/-- Bytes that are part of what has room have room by themselves. -/
theorem room_of_le {sink : Sink} {count offered : Nat} (inside : count ≤ sink.room offered) :
    sink.room count = count := by
  rcases sink.room_cases with free | ⟨most, capped⟩
  · exact free count
  · rw [capped] at inside ⊢
    omega

theorem standstill_after_nil (sink : Sink) (offers : List Nat) :
    (sink.after [] offers).standstill = sink.standstill := by
  have same : (sink.after [] offers).refusal? = sink.refusal? := by
    unfold refusal?
    rw [size_taken_after]
    rfl
  rw [standstill, same, standstill]

/-! ## One write without a script -/

variable {sink next : Sink} {bytes : List UInt8} {error : IoError}

theorem write_eq_ok_of_unscripted {count : Nat} (free : sink.writeFaults = [])
    (answer : sink.write bytes = (.ok count, next)) :
    sink.refusal? = none ∧ count = sink.share bytes.length := by
  have went := sink.writes_write bytes
  rw [answer] at went
  cases went with
  | nothing lapse =>
      rw [free] at lapse
      cases lapse
  | takes _ room => exact ⟨room, rfl⟩

theorem write_eq_error_of_unscripted (free : sink.writeFaults = [])
    (answer : sink.write bytes = (.error error, next)) :
    ∃ refusal, sink.refusal? = some refusal ∧ error = refusal.error := by
  have went := sink.writes_write bytes
  rw [answer] at went
  cases went with
  | fails lapse =>
      rw [free] at lapse
      cases lapse
  | refused _ full => exact ⟨_, full, rfl⟩

theorem flush_fst (sink : Sink) : (ByteSink.flush sink).1 =
    match Fault.at? sink.flushFaults sink.flushes with
    | some error => .error error
    | none => .ok () := by
  change (flush sink).1 = _
  unfold flush
  cases Fault.at? sink.flushFaults sink.flushes <;> rfl

/-- Whether a flush goes well does not depend on the writes before it. -/
theorem flush_after_fst (sink : Sink) (out : List UInt8) (offers : List Nat) :
    (ByteSink.flush (sink.after out offers)).1 = (ByteSink.flush sink).1 := by
  rw [flush_fst, flush_fst]
  rfl

/-! ## How a delivery ends -/

/-- The one way to deal with bytes: they fit, or the sink takes what fits and stops. -/
inductive Settles (sink : Sink) (bytes : List UInt8) : Except IoError Unit × Sink → Prop where
  | whole (fits : sink.room bytes.length = bytes.length) (offers : List Nat) :
      Settles sink bytes (.ok (), sink.after bytes offers)
  | part {out : List UInt8} (full : sink.room bytes.length < bytes.length)
      (front : out = bytes.take (sink.room bytes.length)) (offers : List Nat) :
      Settles sink bytes (.error (sink.after out offers).standstill, sink.after out offers)

namespace Settles

variable {sink middle : Sink} {front back bytes : List UInt8} {error : IoError}

theorem stuck (something : bytes ≠ []) (full : sink.room bytes.length = 0) (offers : List Nat) :
    Settles sink bytes (.error sink.standstill, sink.after [] offers) := by
  rw [← sink.standstill_after_nil offers]
  refine .part ?_ ?_ offers
  · rw [full]
    exact List.length_pos_iff.mpr something
  · rw [full, List.take_zero]

/-- A sink that stops in the front never comes to the back. -/
theorem of_front (stopped : Settles sink front (.error error, middle)) (back : List UInt8) :
    Settles sink (front ++ back) (.error error, middle) := by
  cases stopped with
  | part full taken offers =>
      have same := room_add_of_lt full back.length
      rw [← List.length_append] at same
      refine .part ?_ ?_ offers
      · rw [same, List.length_append]
        exact Nat.lt_of_lt_of_le full (Nat.le_add_right _ _)
      · rw [same, List.take_append_of_le_length (Nat.le_of_lt full)]
        exact taken

theorem append {outcome : Except IoError Unit × Sink}
    (first : Settles sink front (.ok (), middle)) (second : Settles middle back outcome) :
    Settles sink (front ++ back) outcome := by
  cases first with
  | whole fits offers =>
      have enough : front.length ≤ sink.room (front.length + back.length) :=
        Nat.le_trans (Nat.le_of_eq fits.symm) (sink.room_mono (Nat.le_add_right _ _))
      have added := room_add enough offers
      rw [← List.length_append] at added
      cases second with
      | whole fits' more =>
          rw [after_after]
          refine .whole ?_ _
          rw [added, fits', List.length_append]
      | part full taken more =>
          rw [after_after]
          refine .part ?_ ?_ _
          · rw [added, List.length_append]
            exact Nat.add_lt_add_left full _
          · rw [added, taken, List.take_length_add_append]

/-- The end depends on the bytes alone. -/
theorem unique {one other : Except IoError Unit × Sink} (first : Settles sink bytes one)
    (second : Settles sink bytes other) :
    one.1 = other.1 ∧ one.2.takenBytes = other.2.takenBytes ∧
      (ByteSink.flush one.2).1 = (ByteSink.flush other.2).1 := by
  cases first with
  | whole fits offers =>
      cases second with
      | whole _ more =>
          refine ⟨rfl, rfl, ?_⟩
          rw [flush_after_fst, flush_after_fst]
      | part full _ _ => exact absurd fits (Nat.ne_of_lt full)
  | part full taken offers =>
      cases second with
      | whole fits _ => exact absurd fits (Nat.ne_of_lt full)
      | part _ taken' more =>
          subst taken taken'
          refine ⟨rfl, rfl, ?_⟩
          rw [flush_after_fst, flush_after_fst]

/-- A sink with a limit takes what fits and then fails in its own way. -/
theorem of_limit {outcome : Except IoError Unit × Sink} {limit : Nat} {refusal : LastingError}
    (settled : Settles sink bytes outcome) (limited : sink.limit = some limit)
    (moving : sink.maxWrite ≠ some 0) (failing : sink.whenFull = some refusal)
    (full : limit - sink.taken.size < bytes.length) :
    outcome.1 = .error refusal.error ∧
      outcome.2.takenBytes = sink.takenBytes ++ bytes.take (limit - sink.taken.size) := by
  have fitting : sink.room bytes.length = limit - sink.taken.size := by
    rw [room, if_neg moving, limited]
    exact Nat.min_eq_right (Nat.le_of_lt full)
  cases settled with
  | whole fits =>
      rw [fitting] at fits
      exact absurd fits (Nat.ne_of_lt full)
  | @part out _ front offers =>
      rw [fitting] at front
      have reached : (sink.after out offers).refusal? = some refusal := by
        rw [refusal?, show (sink.after out offers).limit = _ from limited, size_taken_after, front,
          List.length_take_of_le (Nat.le_of_lt full), ← failing]
        exact if_pos (by omega)
      refine ⟨?_, ?_⟩
      · rw [standstill, reached]
      · rw [takenBytes_after, front]

end Settles

/-! ## Deliveries without a script -/

/-- A delivery ends in the one way there is. -/
theorem settles_deliver {sink : Sink} (free : sink.writeFaults = []) (bytes : List UInt8) :
    Settles sink bytes (deliver sink bytes) := by
  fun_induction deliver sink bytes with
  | case1 sink =>
      have nothing := @Settles.whole sink [] sink.room_zero []
      rwa [after_nil] at nothing
  | case2 sink byte rest next answer =>
      obtain ⟨unrefused, nothing⟩ := write_eq_ok_of_unscripted free answer
      obtain ⟨rfl, -⟩ := write_eq_ok answer
      have stopped := Settles.stuck (List.cons_ne_nil byte rest)
        (room_eq_zero_of_share (Nat.succ_pos _) nothing.symm) [(byte :: rest).length]
      rwa [standstill, unrefused] at stopped
  | case3 sink byte rest count next answer ih =>
      obtain ⟨-, shared⟩ := write_eq_ok_of_unscripted free answer
      obtain ⟨rfl, bound⟩ := write_eq_ok answer
      have inside : count + 1 ≤ sink.room (byte :: rest).length :=
        Nat.le_trans (Nat.le_of_eq shared) (sink.share_le_room _)
      have taken : ((byte :: rest).take (count + 1)).length = count + 1 :=
        List.length_take_of_le bound
      have first : Settles sink ((byte :: rest).take (count + 1))
          (.ok (), sink.after ((byte :: rest).take (count + 1)) [(byte :: rest).length]) := by
        refine .whole ?_ _
        rw [taken]
        exact room_of_le inside
      have whole := first.append (ih free)
      rwa [← List.drop_succ_cons, List.take_append_drop] at whole
  | case4 sink byte rest error next answer passing _ =>
      obtain ⟨refusal, -, rfl⟩ := write_eq_error_of_unscripted free answer
      exact absurd passing refusal.lasting
  | case5 sink byte rest error next answer lasting =>
      obtain ⟨refusal, full, rfl⟩ := write_eq_error_of_unscripted free answer
      obtain rfl := write_eq_error answer
      have stopped := Settles.stuck (List.cons_ne_nil byte rest)
        (room_eq_zero_of_refusal full _) [(byte :: rest).length]
      rwa [standstill, full] at stopped

theorem settles_deliverEach {sink : Sink} (free : sink.writeFaults = [])
    (pieces : List (List UInt8)) : Settles sink pieces.flatten (deliverEach sink pieces) := by
  induction pieces generalizing sink with
  | nil =>
      rw [deliverEach_nil, ← deliver_nil]
      exact settles_deliver free []
  | cons piece rest ih =>
      have first := settles_deliver free piece
      rw [deliverEach_cons, List.flatten_cons]
      generalize deliver sink piece = outcome at first
      cases first with
      | part full front offers => exact (Settles.part full front offers).of_front rest.flatten
      | whole fits offers => exact (Settles.whole fits offers).append (ih free)

/-- However the same bytes are cut into pieces, and a batcher is one way, the pass ends alike. -/
theorem deliverAll_batched {sink : Sink} (free : sink.writeFaults = []) (capacity : Nat)
    (pieces : List (List UInt8)) :
    (deliverAll (Batcher.around sink capacity) pieces).1 = (deliverAll sink pieces).1 ∧
      (deliverAll (Batcher.around sink capacity) pieces).2.inner.takenBytes =
        (deliverAll sink pieces).2.takenBytes := by
  obtain ⟨recut, same, front, whole⟩ := (Batcher.around sink capacity).deliverAll_inner pieces
  rw [Batcher.pendingBytes_around, List.nil_append] at front whole
  obtain ⟨answer, inner⟩ := Prod.mk.inj same
  rw [answer, inner]
  change (deliverAll sink recut).1 = _ ∧ (deliverAll sink recut).2.takenBytes = _
  -- The pieces of the batcher may miss bytes at the end only if one of them is refused.
  have batched : Settles sink pieces.flatten (deliverEach sink recut) := by
    have settled := settles_deliverEach free recut
    rcases ended : deliverEach sink recut with ⟨error | _, last⟩
    · rw [ended] at settled
      obtain ⟨rest, joined⟩ := front
      rw [← joined]
      exact settled.of_front rest
    · rw [ended] at settled
      rwa [whole (congrArg Prod.fst ended)] at settled
  obtain ⟨ending, taken, flushed⟩ := batched.unique (settles_deliverEach free pieces)
  unfold deliverAll
  generalize deliverEach sink recut = one at ending taken flushed ⊢
  generalize deliverEach sink pieces = other at ending taken flushed ⊢
  obtain ⟨error | _, last⟩ := one
  · obtain ⟨error' | _, last'⟩ := other
    · exact ⟨ending, taken⟩
    · cases ending
  · obtain ⟨error' | _, last'⟩ := other
    · cases ending
    · refine ⟨flushed, ?_⟩
      rw [flush_snd, flush_snd, takenBytes_recordFlush, takenBytes_recordFlush]
      exact taken

end TrackImage.Device.Sink
