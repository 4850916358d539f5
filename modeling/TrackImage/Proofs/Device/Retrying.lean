import TrackImage.Proofs.Device.Surviving

/-!
# Calls made again until they succeed

A call of a batcher that fails keeps undrained bytes pending, and the sink keeps
what it took of the delivery that failed. So no byte is lost and none changes its
place when failed calls are made again, whatever the sink did; and what the sink
took of failed deliveries, it takes again.
-/

namespace TrackImage

open Device

/-! ## Sinks that can only fail so often -/

namespace Device.Sink

/-- A sink that has room for any bytes and takes some of every offer that does not go wrong. -/
structure Unbounded (sink : Sink) : Prop where
  limit : sink.limit = none
  takes : ∀ most, sink.maxWrite = some most → 0 < most

/-- How many calls from now on can still go wrong. -/
def mishaps (sink : Sink) : Nat :=
  sink.patience + Fault.ahead sink.flushFaults sink.flushes

namespace Unbounded

variable {sink next : Sink} {bytes : List UInt8} {error : IoError}

theorem after (free : sink.Unbounded) (out : List UInt8) (offers : List Nat) :
    (sink.after out offers).Unbounded :=
  ⟨free.limit, free.takes⟩

theorem recordFlush (free : sink.Unbounded) : sink.recordFlush.Unbounded :=
  ⟨free.limit, free.takes⟩

/-- A write of something that fails, or takes nothing, is one that the script lets go wrong. -/
theorem patience_lt_of_write (free : sink.Unbounded) (something : bytes ≠ [])
    {answer : Except IoError Nat} (written : sink.write bytes = (answer, next))
    (useless : ∀ count, answer ≠ .ok (count + 1)) : next.patience < sink.patience := by
  have went := sink.writes_write bytes
  rw [written] at went
  have roomy : sink.refusal? = none := by
    rw [refusal?, free.limit]
  cases went with
  | nothing lapse => exact Fault.ahead_succ_lt lapse
  | fails lapse => exact Fault.ahead_succ_lt lapse
  | refused _ full =>
      rw [roomy] at full
      cases full
  | takes =>
      have offered := List.length_pos_iff.mpr something
      have positive : 0 < sink.share bytes.length := by
        rw [share, free.limit]
        cases most : sink.maxWrite with
        | none => exact Nat.lt_min.mpr ⟨offered, offered⟩
        | some most' => exact Nat.lt_min.mpr ⟨offered, free.takes most' most⟩
      exact absurd (congrArg Except.ok (Nat.sub_add_cancel positive).symm) (useless _)

/-- So a delivery that fails uses an entry of the script up. -/
theorem patience_lt_of_refused (free : sink.Unbounded)
    (refused : deliver sink bytes = (.error error, next)) : next.patience < sink.patience := by
  fun_induction deliver sink bytes with
  | case1 => cases refused
  | case2 sink byte rest stopped answer =>
      cases refused
      refine free.patience_lt_of_write (List.cons_ne_nil _ _) answer ?_
      intro count impossible
      cases impossible
  | case3 sink byte rest middle count answer ih =>
      have fewer := patience_le sink (byte :: rest)
      rw [show sink.write (byte :: rest) = _ from answer] at fewer
      obtain ⟨rfl, -⟩ := write_eq_ok answer
      exact Nat.lt_of_lt_of_le (ih (free.after _ _) refused) fewer
  | case4 sink byte rest interruption middle answer passing ih =>
      have fewer := patience_lt answer passing
      cases write_eq_error answer
      exact Nat.lt_trans (ih (free.after _ _) refused) fewer
  | case5 sink byte rest refusal stopped answer =>
      cases refused
      refine free.patience_lt_of_write (List.cons_ne_nil _ _) answer ?_
      intro count impossible
      cases impossible

theorem of_deliver {answer : Except IoError Unit} (free : sink.Unbounded)
    (delivered : deliver sink bytes = (answer, next)) : next.Unbounded := by
  obtain ⟨out, offers, last, -⟩ := sink.deliver_snd bytes
  rw [delivered] at last
  rw [show next = _ from last]
  exact free.after out offers

theorem of_flush {answer : Except IoError Unit} (free : sink.Unbounded)
    (flushed : sink.flush = (answer, next)) : next.Unbounded := by
  rw [eq_recordFlush flushed]
  exact free.recordFlush

end Unbounded

variable {sink next : Sink} {bytes : List UInt8} {error : IoError}

/-- A delivery leaves the script of the flushes where it is. -/
theorem mishaps_of_deliver {answer : Except IoError Unit}
    (delivered : deliver sink bytes = (answer, next)) :
    next.mishaps = next.patience + Fault.ahead sink.flushFaults sink.flushes := by
  obtain ⟨out, offers, last, -⟩ := sink.deliver_snd bytes
  rw [delivered] at last
  rw [show next = _ from last]
  rfl

theorem mishaps_le_of_deliver {answer : Except IoError Unit}
    (delivered : deliver sink bytes = (answer, next)) : next.mishaps ≤ sink.mishaps := by
  have fewer := deliver_patience_le sink bytes
  rw [delivered] at fewer
  rw [mishaps_of_deliver delivered]
  exact Nat.add_le_add_right fewer _

theorem Unbounded.mishaps_lt_of_refused (free : sink.Unbounded)
    (refused : deliver sink bytes = (.error error, next)) : next.mishaps < sink.mishaps := by
  rw [mishaps_of_deliver refused]
  exact Nat.add_lt_add_right (free.patience_lt_of_refused refused) _

theorem mishaps_lt_of_flush (failed : sink.flush = (.error error, next)) :
    next.mishaps < sink.mishaps := by
  unfold flush at failed
  split at failed
  · next found =>
      cases failed
      exact Nat.add_lt_add_left (Fault.ahead_succ_lt found) _
  · cases failed

end Device.Sink

namespace Batcher

variable {batcher next : Batcher Sink} {request : Request} {error : IoError}

/-- Of the mishaps that are ahead a request that fails uses one up. -/
theorem Fails.mishaps_lt (fails : batcher.Fails request error next)
    (free : batcher.inner.Unbounded) :
    next.inner.Unbounded ∧ next.inner.mishaps < batcher.inner.mishaps := by
  cases fails with
  | keeping _ refused | draining _ refused =>
      exact ⟨free.of_deliver refused, free.mishaps_lt_of_refused refused⟩
  | passing _ delivered refused =>
      have drained := free.of_deliver delivered
      refine ⟨drained.of_deliver refused, ?_⟩
      calc
        _ < _ := drained.mishaps_lt_of_refused refused
        _ ≤ _ := Sink.mishaps_le_of_deliver delivered
  | flushing delivered refused =>
      refine ⟨(free.of_deliver delivered).of_flush refused, ?_⟩
      calc
        _ < _ := Sink.mishaps_lt_of_flush refused
        _ ≤ _ := Sink.mishaps_le_of_deliver delivered

/-- A sink without bounds stays so when a request is served. -/
theorem unbounded_of_serve {count : Nat} (served : batcher.serve request = (.ok count, next))
    (free : batcher.inner.Unbounded) : next.inner.Unbounded := by
  cases request with
  | write bytes =>
      obtain ⟨-, -, -, -, pieces, delivered, -⟩ := write_eq_ok served
      obtain ⟨out, offers, last, -⟩ := batcher.inner.deliverEach_snd pieces
      rw [delivered] at last
      rw [show next.inner = _ from last]
      exact free.after out offers
  | flush =>
      obtain ⟨-, flushed⟩ := serve_flush_eq_ok served
      obtain ⟨-, -, -, inner, delivered, last⟩ := flush_eq_ok flushed
      exact (free.of_deliver delivered).of_flush last

/-! ## Requests made until they succeed -/

/-- A call that failed: what was asked, and the batcher before and after it. -/
structure Attempt where
  request : Request
  before : Batcher Sink
  after : Batcher Sink

namespace Attempt

/-- The call was a flush, or a write too long to be kept. -/
def Direct (attempt : Attempt) : Prop :=
  attempt.request.Direct attempt.before.capacity

/-- What the sink took of the delivery that failed. -/
def spilled (attempt : Attempt) : List UInt8 :=
  Batcher.spilled attempt.before attempt.after

end Attempt

/-- Requests made in a row, each again and again until it succeeds, with the calls that failed. -/
inductive Retries : Batcher Sink → List Request → List Attempt → Batcher Sink → Prop where
  | refl (batcher : Batcher Sink) : Retries batcher [] [] batcher
  | served {request : Request} {rest : List Request} {attempts : List Attempt} {count : Nat}
      {batcher middle last : Batcher Sink} (first : batcher.serve request = (.ok count, middle))
      (others : Retries middle rest attempts last) :
      Retries batcher (request :: rest) attempts last
  | again {request : Request} {rest : List Request} {attempts : List Attempt} {error : IoError}
      {batcher middle last : Batcher Sink}
      (failed : batcher.serve request = (.error error, middle))
      (others : Retries middle (request :: rest) attempts last) :
      Retries batcher (request :: rest) (⟨request, batcher, middle⟩ :: attempts) last

/-- With only so many mishaps ahead every request succeeds in the end. -/
theorem exists_retries (requests : List Request) (batcher : Batcher Sink)
    (free : batcher.inner.Unbounded) :
    ∃ attempts last, Retries batcher requests attempts last := by
  induction requests generalizing batcher with
  | nil => exact ⟨[], batcher, .refl batcher⟩
  | cons request rest ih =>
      -- A request that fails is made again with fewer mishaps ahead; one that is served is done.
      induction ahead : batcher.inner.mishaps using Nat.strongRecOn generalizing batcher with
      | ind _ earlier =>
          rcases served : batcher.serve request with ⟨error | count, middle⟩
          · obtain ⟨free', fewer⟩ := (fails_of_serve served).mishaps_lt free
            obtain ⟨attempts, last, others⟩ := earlier _ (ahead ▸ fewer) middle free' rfl
            exact ⟨_, last, .again served others⟩
          · obtain ⟨attempts, last, others⟩ := ih middle (unbounded_of_serve served free)
            exact ⟨attempts, last, .served served others⟩

namespace Retries

variable {requests : List Request} {attempts : List Attempt} {last : Batcher Sink}

/-- Requests made again and again are requests made whatever became of those before. -/
theorem exists_granted (retries : Retries batcher requests attempts last) :
    ∃ calls, batcher.served calls = last ∧ batcher.granted calls = requests := by
  induction retries with
  | refl => exact ⟨[], rfl, rfl⟩
  | @served request _ _ _ _ _ _ first _ ih =>
      obtain ⟨calls, rfl, rfl⟩ := ih
      exact ⟨request :: calls, served_cons first calls, granted_cons_of_ok first calls⟩
  | @again request _ _ _ _ _ _ failed _ ih =>
      obtain ⟨calls, rfl, same⟩ := ih
      exact ⟨request :: calls, served_cons failed calls,
        (granted_cons_of_error failed calls).trans same⟩

/-- Everything written is there in its order, whatever stands between, and is counted. -/
theorem keeps (retries : Retries batcher requests attempts last) :
    Keeps batcher (Request.offered requests) last := by
  obtain ⟨calls, rfl, rfl⟩ := retries.exists_granted
  exact (Keeps.refl batcher).served calls

/-- What stands between was taken twice. -/
theorem length_contents (retries : Retries batcher requests attempts last)
    (direct : ∀ attempt ∈ attempts, attempt.Direct) :
    last.contents.length = batcher.contents.length + (Request.offered requests).length +
      (attempts.flatMap Attempt.spilled).length := by
  induction retries with
  | refl => rfl
  | served first _ ih =>
      rw [ih direct, contents_of_serve first, Request.offered_cons]
      simp only [List.length_append]
      omega
  | again failed _ ih =>
      obtain ⟨here, rest⟩ := List.forall_mem_cons.mp direct
      have counted := (fails_of_serve failed).length_contents here
      simp only [ih rest, counted, List.flatMap_cons, List.length_append, Attempt.spilled]
      omega

/-- Once the last flush has succeeded nothing is pending. -/
theorem pendingBytes_eq (retries : Retries batcher (requests ++ [.flush]) attempts last) :
    last.pendingBytes = [] := by
  generalize whole : requests ++ [.flush] = all at retries
  induction retries generalizing requests with
  | refl => exact absurd whole (List.append_ne_nil_of_right_ne_nil _ (List.cons_ne_nil _ _))
  | served first others ih =>
      cases requests with
      | nil =>
          cases whole
          cases others
          exact (flush_eq_ok (serve_flush_eq_ok first).2).1
      | cons request rest =>
          cases whole
          exact ih rfl
  | again _ _ ih => exact ih whole

end Retries

theorem offered_chunks (chunks : List (List UInt8)) :
    Request.offered (chunks.map Request.write ++ [.flush]) = chunks.flatten := by
  induction chunks with
  | nil => rfl
  | cons chunk rest ih =>
      rw [List.map_cons, List.cons_append, Request.offered_cons, ih, List.flatten_cons]
      rfl

/--
Writing each chunk again and again until that succeeds, and then flushing until
that does, comes to an end when the sink can only go wrong so often. Nothing is
pending then, every chunk is counted once, and the sink has all of them in order.
As long as no write failed that keeps its bytes, what the sink took besides is
what it took of deliveries that then failed, so it took the chunks and nothing
else just when that was nothing.
-/
theorem takenBytes_of_retries {sink : Sink} (free : sink.Unbounded) (capacity : Nat)
    (chunks : List (List UInt8)) :
    let requests := chunks.map Request.write ++ [.flush]
    (∃ attempts last, Retries (around sink capacity) requests attempts last) ∧
      ∀ attempts last, Retries (around sink capacity) requests attempts last →
        last.pendingBytes = [] ∧ last.accepted = chunks.flatten.length ∧
        ∃ out, last.inner.takenBytes = sink.takenBytes ++ out ∧ chunks.flatten.Sublist out ∧
          ((∀ attempt ∈ attempts, attempt.Direct) →
            out.length = last.accepted + (attempts.flatMap Attempt.spilled).length ∧
            (out = chunks.flatten ↔ ∀ attempt ∈ attempts, attempt.spilled = [])) := by
  intro requests
  refine ⟨exists_retries requests _ free, ?_⟩
  intro attempts last retries
  have empty := retries.pendingBytes_eq
  have whole := retries.keeps.contents
  have counted := retries.keeps.accepted
  obtain ⟨out, taken⟩ := retries.keeps.taken
  -- Nothing is pending in the end, so what is there is what the sink took.
  have contents : last.contents = sink.takenBytes ++ out := by
    rw [Batcher.contents, empty, List.append_nil, ← taken]
    rfl
  rw [contents, contents_around, offered_chunks, List.append_sublist_append_left] at whole
  rw [offered_chunks] at counted
  replace counted : last.accepted = chunks.flatten.length := counted.trans (Nat.zero_add _)
  refine ⟨empty, counted, out, taken.symm, whole, ?_⟩
  intro direct
  have balance := retries.length_contents direct
  rw [contents, contents_around, offered_chunks, List.length_append] at balance
  refine ⟨by omega, ?_⟩
  rw [← List.flatMap_eq_nil_iff, ← List.length_eq_zero_iff]
  constructor
  · intro same
    rw [same] at balance
    omega
  · intro none
    exact (whole.eq_of_length (by omega)).symm

/-- A write that takes nothing and a flush that fails, each made again, change no output. -/
theorem takenBytes_of_retries_unspilled :
    let error : IoError := ⟨.named "Other", "boom", []⟩
    let sink : Sink :=
      { maxWrite := some 2, writeFaults := [⟨0, .nothing⟩], flushFaults := [⟨0, error⟩] }
    ∃ attempts last,
      Retries (around sink 4) [.write [1, 2], .write [3, 4, 5, 6], .flush] attempts last ∧
      attempts.length = 2 ∧ last.pendingBytes = [] ∧ last.accepted = 6 ∧
      last.inner.takenBytes = [1, 2, 3, 4, 5, 6] := by
  intro error sink
  let first := ((around sink 4).serve (.write [1, 2])).2
  let second := (first.serve (.write [3, 4, 5, 6])).2
  let third := (second.serve (.write [3, 4, 5, 6])).2
  let fourth := (third.serve .flush).2
  let last := (fourth.serve .flush).2
  have kept : (around sink 4).serve (.write [1, 2]) = (.ok 2, first) := by
    unfold first sink error
    refine Prod.ext ?_ rfl
    decide +kernel
  have refused : first.serve (.write [3, 4, 5, 6]) = (.error .writeZero, second) := by
    unfold second first sink error
    refine Prod.ext ?_ rfl
    decide +kernel
  have written : second.serve (.write [3, 4, 5, 6]) = (.ok 4, third) := by
    unfold third second first sink error
    refine Prod.ext ?_ rfl
    decide +kernel
  have failed : third.serve .flush = (.error error, fourth) := by
    unfold fourth third second first sink error
    refine Prod.ext ?_ rfl
    decide +kernel
  have flushed : fourth.serve .flush = (.ok 0, last) := by
    unfold last fourth third second first sink error
    refine Prod.ext ?_ rfl
    decide +kernel
  have retries : Retries (around sink 4) [.write [1, 2], .write [3, 4, 5, 6], .flush]
      [⟨.write [3, 4, 5, 6], first, second⟩, ⟨.flush, third, fourth⟩] last :=
    .served kept (.again refused (.served written (.again failed (.served flushed (.refl _)))))
  have free : sink.Unbounded := by
    refine ⟨rfl, ?_⟩
    simp [sink]
  obtain ⟨-, every⟩ := takenBytes_of_retries free 4 [[1, 2], [3, 4, 5, 6]]
  obtain ⟨empty, accepted, out, taken, -, balanced⟩ := every _ _ retries
  have direct : first.capacity ≤ 4 := by
    decide
  have unspilled : spilled first second = [] ∧ spilled third fourth = [] := by
    unfold fourth third second first sink error
    decide +kernel
  obtain ⟨-, same⟩ := balanced (by simpa [Attempt.Direct, Request.Direct] using direct)
  obtain rfl := same.mpr (by simpa [Attempt.spilled] using unspilled)
  exact ⟨_, last, retries, rfl, empty, accepted, taken⟩

/-- A flush made again after its sink took one byte of three repeats that byte. -/
theorem flush_retried_repeats :
    let error : IoError := ⟨.named "Other", "boom", []⟩
    let sink : Sink := { maxWrite := some 1, writeFaults := [⟨1, .fails error⟩] }
    sink.Unbounded ∧ ∃ attempts last,
      Retries (around sink 4) [.write [1, 2, 3], .flush] attempts last ∧
      last.accepted = 3 ∧ last.inner.takenBytes = [1, 1, 2, 3] ∧
      last.inner.takenBytes ≠ [[1, 2, 3]].flatten := by
  intro error sink
  let first := ((around sink 4).serve (.write [1, 2, 3])).2
  let second := (first.serve .flush).2
  let last := (second.serve .flush).2
  have kept : (around sink 4).serve (.write [1, 2, 3]) = (.ok 3, first) := by
    unfold first sink error
    refine Prod.ext ?_ rfl
    decide +kernel
  have failed : first.serve .flush = (.error error, second) := by
    unfold second first sink error
    refine Prod.ext ?_ rfl
    decide +kernel
  have flushed : second.serve .flush = (.ok 0, last) := by
    unfold last second first sink error
    refine Prod.ext ?_ rfl
    decide +kernel
  have retries : Retries (around sink 4) [.write [1, 2, 3], .flush] [⟨.flush, first, second⟩]
      last :=
    .served kept (.again failed (.served flushed (.refl _)))
  have taken : last.inner.takenBytes = [1, 1, 2, 3] := by
    unfold last second first sink error
    decide +kernel
  have free : sink.Unbounded := by
    refine ⟨rfl, ?_⟩
    simp [sink]
  refine ⟨free, _, last, retries, retries.keeps.accepted, taken, ?_⟩
  rw [taken]
  decide

end Batcher

end TrackImage
