import TrackImage.Device.Sink
import TrackImage.Proofs.Stream.Deliveries

/-!
# Writing to an output device

Write calls add to what a sink has taken and to the record of its calls, and
change nothing else. A delivery is such calls: the sink takes a front part of
the bytes, and all of them if the delivery succeeds.
-/

namespace TrackImage.Device.Sink

/-! ## The sink after some writes -/

/-- The sink after writes that offered so many bytes each and took these bytes in all. -/
def after (sink : Sink) (out : List UInt8) (offers : List Nat) : Sink :=
  { sink with
    taken := sink.taken ++ out.toByteArray
    calls := sink.calls ++ (offers.map SinkCall.write).toArray
    writes := sink.writes + offers.length }

@[simp] theorem takenBytes_after (sink : Sink) (out : List UInt8) (offers : List Nat) :
    (sink.after out offers).takenBytes = sink.takenBytes ++ out :=
  sink.takenBytes_take out

@[simp] theorem calls_after (sink : Sink) (out : List UInt8) (offers : List Nat) :
    (sink.after out offers).calls.toList =
      sink.calls.toList ++ offers.map SinkCall.write := by
  simp [after]

theorem size_taken_after (sink : Sink) (out : List UInt8) (offers : List Nat) :
    (sink.after out offers).taken.size = sink.taken.size + out.length := by
  simp [after]

@[simp] theorem after_nil (sink : Sink) : sink.after [] [] = sink := by
  simp [after]

@[simp] theorem after_after (sink : Sink) (first second : List UInt8) (offers later : List Nat) :
    (sink.after first offers).after second later =
      sink.after (first ++ second) (offers ++ later) := by
  simp [after, ByteArray.append_assoc, Nat.add_assoc, List.toByteArray_append]

@[simp] theorem takenBytes_recordFlush (sink : Sink) :
    sink.recordFlush.takenBytes = sink.takenBytes :=
  rfl

@[simp] theorem calls_recordFlush (sink : Sink) :
    sink.recordFlush.calls.toList = sink.calls.toList ++ [.flush] := by
  simp [recordFlush]

/-! ## One call -/

theorem share_le (sink : Sink) (offered : Nat) : sink.share offered ≤ offered := by
  unfold share
  split <;> simp only <;> omega

/-- The ways a write can go. -/
inductive Writes (sink : Sink) (bytes : List UInt8) : Except IoError Nat × Sink → Prop where
  | nothing (lapse : Fault.at? sink.writeFaults sink.writes = some .nothing) :
      Writes sink bytes (.ok 0, sink.after [] [bytes.length])
  | fails {error : IoError} (lapse : Fault.at? sink.writeFaults sink.writes = some (.fails error)) :
      Writes sink bytes (.error error, sink.after [] [bytes.length])
  | refused {refusal : LastingError} (clear : Fault.at? sink.writeFaults sink.writes = none)
      (full : sink.refusal? = some refusal) :
      Writes sink bytes (.error refusal.error, sink.after [] [bytes.length])
  | takes (clear : Fault.at? sink.writeFaults sink.writes = none) (room : sink.refusal? = none) :
      Writes sink bytes (.ok (sink.share bytes.length),
        sink.after (bytes.take (sink.share bytes.length)) [bytes.length])

theorem recordWrite_eq (sink : Sink) (offered : Nat) :
    sink.recordWrite offered = sink.after [] [offered] := by
  simp [after, recordWrite]

theorem writes_write (sink : Sink) (bytes : List UInt8) : Writes sink bytes (sink.write bytes) := by
  unfold write
  rw [recordWrite_eq]
  split
  · next lapse => exact .nothing lapse
  · next lapse => exact .fails lapse
  · next clear =>
      cases full : sink.refusal? with
      | some refusal => exact .refused clear full
      | none =>
          have same : (sink.after [] [bytes.length]).take (bytes.take (sink.share bytes.length)) =
              sink.after (bytes.take (sink.share bytes.length)) [bytes.length] := by
            simp [after, take]
          simp only [same]
          exact .takes clear full

theorem write_eq_ok {sink next : Sink} {bytes : List UInt8} {count : Nat}
    (answer : sink.write bytes = (.ok count, next)) :
    next = sink.after (bytes.take count) [bytes.length] ∧ count ≤ bytes.length := by
  have went := sink.writes_write bytes
  rw [answer] at went
  cases went with
  | nothing => exact ⟨rfl, Nat.zero_le _⟩
  | takes => exact ⟨rfl, sink.share_le _⟩

/-- A write that fails takes nothing. -/
theorem write_eq_error {sink next : Sink} {bytes : List UInt8} {error : IoError}
    (answer : sink.write bytes = (.error error, next)) :
    next = sink.after [] [bytes.length] := by
  have went := sink.writes_write bytes
  rw [answer] at went
  cases went with
  | fails | refused => rfl

/-- Whatever a flush answers, it is one call more on record. -/
theorem eq_recordFlush {sink next : Sink} {answer : Except IoError Unit}
    (flushed : sink.flush = (answer, next)) : next = sink.recordFlush := by
  unfold flush at flushed
  split at flushed
  · exact (Prod.mk.inj flushed).2.symm
  · exact (Prod.mk.inj flushed).2.symm

@[simp] theorem flush_snd (sink : Sink) : (ByteSink.flush sink).2 = sink.recordFlush :=
  eq_recordFlush rfl

/-! ## Deliveries -/

/-- A delivery is writes that take a front part of the bytes, all of them on success. -/
theorem deliver_snd (sink : Sink) (bytes : List UInt8) :
    ∃ out offers, (deliver sink bytes).2 = sink.after out offers ∧ out <+: bytes ∧
      ((deliver sink bytes).1 = .ok () → out = bytes) := by
  fun_induction deliver sink bytes with
  | case1 sink => exact ⟨[], [], sink.after_nil.symm, List.prefix_rfl, fun _ => rfl⟩
  | case2 sink byte rest next answer =>
      refine ⟨[], [(byte :: rest).length], (write_eq_ok answer).1, List.nil_prefix, ?_⟩
      intro impossible
      cases impossible
  | case3 sink byte rest count next answer ih =>
      obtain ⟨out, offers, last, front, whole⟩ := ih
      obtain ⟨rfl, -⟩ := write_eq_ok answer
      refine ⟨byte :: rest.take count ++ out, (byte :: rest).length :: offers, ?_, ?_, ?_⟩
      · rw [last, after_after]
        rfl
      · have joined : byte :: rest = byte :: rest.take count ++ rest.drop count := by
          rw [List.cons_append, List.take_append_drop]
        rw [joined]
        exact (List.prefix_append_right_inj _).mpr front
      · intro succeeded
        rw [whole succeeded, List.cons_append, List.take_append_drop]
  | case4 sink byte rest error next answer _ ih =>
      obtain ⟨out, offers, last, front, whole⟩ := ih
      cases write_eq_error answer
      refine ⟨out, (byte :: rest).length :: offers, ?_, front, whole⟩
      rw [last, after_after]
      rfl
  | case5 sink byte rest error next answer =>
      refine ⟨[], [(byte :: rest).length], write_eq_error answer, List.nil_prefix, ?_⟩
      intro impossible
      cases impossible

/-- Pieces delivered in order are a front part of all their bytes, on success the whole. -/
theorem deliverEach_snd (sink : Sink) (pieces : List (List UInt8)) :
    ∃ out offers, (deliverEach sink pieces).2 = sink.after out offers ∧ out <+: pieces.flatten ∧
      ((deliverEach sink pieces).1 = .ok () → out = pieces.flatten) := by
  induction pieces generalizing sink with
  | nil => exact ⟨[], [], sink.after_nil.symm, List.prefix_rfl, fun _ => rfl⟩
  | cons piece rest ih =>
      obtain ⟨out, offers, last, front, whole⟩ := sink.deliver_snd piece
      rw [deliverEach_cons, List.flatten_cons]
      rcases delivered : deliver sink piece with ⟨error | _, next⟩
      · rw [delivered] at last
        refine ⟨out, offers, last, front.trans (List.prefix_append _ _), ?_⟩
        intro impossible
        cases impossible
      · rw [delivered] at last whole
        obtain rfl := whole rfl
        obtain rfl : next = _ := last
        obtain ⟨behind, more, last, front, whole⟩ := ih (sink.after out offers)
        refine ⟨out ++ behind, offers ++ more, ?_, ?_, ?_⟩
        · rw [last, after_after]
        · exact (List.prefix_append_right_inj _).mpr front
        · intro succeeded
          rw [whole succeeded]

theorem takenBytes_of_delivered {sink next : Sink} {pieces : List (List UInt8)}
    (delivered : deliverEach sink pieces = (.ok (), next)) :
    next.takenBytes = sink.takenBytes ++ pieces.flatten := by
  obtain ⟨out, offers, last, -, whole⟩ := sink.deliverEach_snd pieces
  rw [delivered] at last whole
  obtain rfl := whole rfl
  rw [show next = _ from last, takenBytes_after]

theorem takenBytes_of_deliverAll {sink next : Sink} {pieces : List (List UInt8)}
    (delivered : deliverAll sink pieces = (.ok (), next)) :
    next.takenBytes = sink.takenBytes ++ pieces.flatten := by
  rcases each : deliverEach sink pieces with ⟨error | _, middle⟩
  · rw [deliverAll_of_error each] at delivered
    cases delivered
  · rw [deliverAll_of_ok each] at delivered
    rw [eq_recordFlush delivered, takenBytes_recordFlush, takenBytes_of_delivered each]

theorem takenBytes_of_refused {sink next : Sink} {pieces : List (List UInt8)} {error : IoError}
    (refused : deliverEach sink pieces = (.error error, next)) :
    ∃ out, next.takenBytes = sink.takenBytes ++ out ∧ out <+: pieces.flatten := by
  obtain ⟨out, offers, last, front, -⟩ := sink.deliverEach_snd pieces
  rw [refused] at last
  exact ⟨out, by rw [show next = _ from last, takenBytes_after], front⟩

/-- One delivery that succeeds. -/
theorem takenBytes_of_deliver {sink next : Sink} {bytes : List UInt8}
    (delivered : deliver sink bytes = (.ok (), next)) :
    next.takenBytes = sink.takenBytes ++ bytes := by
  rw [← deliverEach_singleton] at delivered
  rw [takenBytes_of_delivered delivered, List.flatten_singleton]

/-- One delivery that fails. -/
theorem takenBytes_of_deliver_error {sink next : Sink} {bytes : List UInt8} {error : IoError}
    (refused : deliver sink bytes = (.error error, next)) :
    ∃ out, next.takenBytes = sink.takenBytes ++ out ∧ out <+: bytes := by
  rw [← deliverEach_singleton] at refused
  obtain ⟨out, taken, front⟩ := takenBytes_of_refused refused
  rw [List.flatten_singleton] at front
  exact ⟨out, taken, front⟩

variable {before sink : Sink} {front : List UInt8} {pieces : List (List UInt8)} {offers : List Nat}

/-- What was delivered comes behind what the sink took before. -/
theorem after_of_delivered
    (delivered : deliverEach (before.after front offers) pieces = (.ok (), sink)) :
    ∃ more, sink = before.after (front ++ pieces.flatten) more := by
  obtain ⟨out, further, last, -, whole⟩ := (before.after front offers).deliverEach_snd pieces
  rw [delivered] at last whole
  obtain rfl := whole rfl
  refine ⟨offers ++ further, ?_⟩
  rw [← after_after]
  exact last

/-- Of what was not delivered as a whole the sink has the front. -/
theorem after_of_refused {error : IoError}
    (refused : deliverEach (before.after front offers) pieces = (.error error, sink)) :
    ∃ out more, sink = before.after (front ++ out) more ∧ out <+: pieces.flatten := by
  obtain ⟨out, further, last, part, -⟩ := (before.after front offers).deliverEach_snd pieces
  rw [refused] at last
  refine ⟨out, offers ++ further, ?_, part⟩
  rw [← after_after]
  exact last

/-! ## Sinks that take everything in the end -/

/--
Writes may be short and may be interrupted, and nothing else goes wrong before
so many further bytes are taken.
-/
structure Accepting (sink : Sink) (count : Nat) : Prop where
  writes : ∀ fault ∈ sink.writeFaults, ∃ error, fault.effect = .fails error ∧ error.Passing
  flushes : sink.flushFaults = []
  takes : ∀ most, sink.maxWrite = some most → 0 < most
  room : ∀ limit, sink.limit = some limit → sink.taken.size + count ≤ limit

namespace Accepting

variable {sink : Sink}

theorem after {count : Nat} {out : List UInt8} (willing : sink.Accepting (out.length + count))
    (offers : List Nat) : (sink.after out offers).Accepting count := by
  refine ⟨willing.writes, willing.flushes, willing.takes, ?_⟩
  intro limit found
  have bound := willing.room limit found
  rw [size_taken_after]
  omega

theorem of_le {count less : Nat} (willing : sink.Accepting count) (fewer : less ≤ count) :
    sink.Accepting less := by
  refine ⟨willing.writes, willing.flushes, willing.takes, ?_⟩
  intro limit found
  have bound := willing.room limit found
  omega

theorem passing_of_at? {count call : Nat} {lapse : Lapse} (willing : sink.Accepting count)
    (found : Fault.at? sink.writeFaults call = some lapse) :
    ∃ error, lapse = .fails error ∧ error.Passing := by
  obtain ⟨fault, member, rfl⟩ := Option.map_eq_some_iff.mp found
  exact willing.writes fault (List.mem_of_find?_eq_some member)

theorem refusal?_eq_none {count : Nat} (willing : sink.Accepting count) (positive : 0 < count) :
    sink.refusal? = none := by
  unfold refusal?
  split
  · rfl
  · next limit found =>
      have bound := willing.room limit found
      rw [if_neg (by omega)]

theorem share_pos {count offered : Nat} (willing : sink.Accepting count) (positive : 0 < count)
    (something : 0 < offered) : 0 < sink.share offered := by
  have single : 0 < min offered (sink.maxWrite.getD offered) := by
    cases most : sink.maxWrite with
    | none => simpa using something
    | some most' =>
        have takes := willing.takes most' most
        simp only [Option.getD_some]
        omega
  unfold share
  split
  · exact single
  · next limit found =>
      have bound := willing.room limit found
      simp only
      omega

/-- A sink without limits and without a script takes everything. -/
theorem unlimited (count : Nat) : ({} : Sink).Accepting count := by
  refine ⟨?_, rfl, ?_, ?_⟩
  · intro fault scripted
    cases scripted
  · intro most limited
    cases limited
  · intro limit limited
    cases limited

/-- What a willing sink answers to a write of something. -/
theorem write_answer {bytes : List UInt8} (willing : sink.Accepting bytes.length)
    (something : 0 < bytes.length) :
    (∃ count, (sink.write bytes).1 = .ok (count + 1)) ∨
      ∃ error, (sink.write bytes).1 = .error error ∧ error.Passing := by
  have went := sink.writes_write bytes
  generalize sink.write bytes = outcome at went ⊢
  cases went with
  | nothing lapse =>
      obtain ⟨error, impossible, -⟩ := willing.passing_of_at? lapse
      cases impossible
  | @fails error lapse =>
      obtain ⟨_, same, passing⟩ := willing.passing_of_at? lapse
      cases same
      exact .inr ⟨error, rfl, passing⟩
  | refused _ full =>
      rw [willing.refusal?_eq_none something] at full
      cases full
  | takes =>
      have positive := willing.share_pos something something
      refine .inl ⟨sink.share bytes.length - 1, ?_⟩
      rw [Nat.sub_add_cancel positive]

/-- Everything is delivered to a willing sink. -/
theorem deliver_ok {bytes : List UInt8} (willing : sink.Accepting bytes.length) :
    (deliver sink bytes).1 = .ok () := by
  fun_induction deliver sink bytes with
  | case1 => rfl
  | case2 sink byte rest next answer =>
      have taking := willing.write_answer (Nat.succ_pos _)
      rw [show sink.write (byte :: rest) = (.ok 0, next) from answer] at taking
      simp at taking
  | case3 sink byte rest count next answer ih =>
      obtain ⟨rfl, bound⟩ := write_eq_ok answer
      apply ih
      apply Accepting.after
      refine willing.of_le ?_
      simp only [List.length_take, List.length_drop, List.length_cons] at bound ⊢
      omega
  | case4 sink byte rest error next answer _ ih =>
      cases write_eq_error answer
      apply ih
      apply Accepting.after
      simpa using willing
  | case5 sink byte rest error next answer lasting =>
      have taking := willing.write_answer (Nat.succ_pos _)
      rw [show sink.write (byte :: rest) = (.error error, next) from answer] at taking
      simp [lasting] at taking

theorem deliver_eq {bytes : List UInt8} (willing : sink.Accepting bytes.length) :
    ∃ offers, deliver sink bytes = (.ok (), sink.after bytes offers) := by
  have succeeded := willing.deliver_ok
  obtain ⟨out, offers, last, -, whole⟩ := sink.deliver_snd bytes
  cases whole succeeded
  exact ⟨offers, Prod.ext succeeded last⟩

/-- Every piece is delivered to a willing sink. -/
theorem deliverEach_eq {pieces : List (List UInt8)}
    (willing : sink.Accepting pieces.flatten.length) :
    ∃ offers, deliverEach sink pieces = (.ok (), sink.after pieces.flatten offers) := by
  induction pieces generalizing sink with
  | nil => exact ⟨[], by rw [deliverEach_nil, List.flatten_nil, after_nil]⟩
  | cons piece rest ih =>
      rw [List.flatten_cons, List.length_append] at willing
      obtain ⟨offers, delivered⟩ := (willing.of_le (Nat.le_add_right _ _)).deliver_eq
      obtain ⟨more, last⟩ := ih (willing.after offers)
      refine ⟨offers ++ more, ?_⟩
      rw [deliverEach_cons, delivered, List.flatten_cons, ← after_after]
      exact last

theorem flush_eq {count : Nat} (willing : sink.Accepting count) :
    sink.flush = (.ok (), sink.recordFlush) := by
  have clear : Fault.at? sink.flushFaults sink.flushes = none := by
    rw [willing.flushes, Fault.at?_nil]
  rw [flush, clear]

/-- A flush takes no room. -/
theorem recordFlush {count : Nat} (willing : sink.Accepting count) :
    sink.recordFlush.Accepting count :=
  ⟨willing.writes, willing.flushes, willing.takes, willing.room⟩

/-- Every piece is delivered to a willing sink, and it is flushed. -/
theorem deliverAll_eq {pieces : List (List UInt8)}
    (willing : sink.Accepting pieces.flatten.length) :
    ∃ offers, deliverAll sink pieces =
      (.ok (), (sink.after pieces.flatten offers).recordFlush) := by
  obtain ⟨offers, delivered⟩ := willing.deliverEach_eq
  refine ⟨offers, ?_⟩
  rw [deliverAll_of_ok delivered]
  exact (@Accepting.after sink 0 pieces.flatten willing offers).flush_eq

end Accepting

end TrackImage.Device.Sink
