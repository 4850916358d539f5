import TrackImage.Device.Replies
import TrackImage.Proofs.Device.Reading

/-!
# Requests filled by replies

What becomes of a request can be read off the replies that are coming. It goes
on over replies that give something and over interruptions, until nothing is
missing; the first other reply stops it. So what is delivered, how the request
is answered, and what each read asks for depend on nothing but the replies in
front of the first that stops a request, and interruptions leave no trace.
-/

namespace TrackImage.Device

namespace Reply

/-- What a reply gives, as far as there is room for it. -/
def bytes : Reply → List UInt8
  | gives bytes => bytes
  | fails _ => []

/-- All that some replies give, in order. -/
def given (replies : List Reply) : List UInt8 :=
  replies.flatMap bytes

def interrupts : Reply → Bool
  | gives _ => false
  | fails error => decide error.Passing

/-- Behind the reply a request goes on, if something is still missing. -/
def goesOn : Reply → Bool
  | gives bytes => !bytes.isEmpty
  | fails error => decide error.Passing

/-- How a request is stopped by a reply; without one the input has ended. -/
def stop : Option Reply → FillStop
  | some (fails error) => .failed error
  | _ => .ended

/-- The first of some replies that a request does not go on behind. -/
def stopping? (replies : List Reply) : Option Reply :=
  replies.find? fun reply => !reply.goesOn

@[simp] theorem given_nil : given [] = [] :=
  rfl

@[simp] theorem given_cons (reply : Reply) (rest : List Reply) :
    given (reply :: rest) = reply.bytes ++ given rest :=
  List.flatMap_cons

theorem stopping?_cons (reply : Reply) (rest : List Reply) :
    stopping? (reply :: rest) = if reply.goesOn then stopping? rest else some reply := by
  cases goes : reply.goesOn with
  | true => simp [stopping?, goes]
  | false => simp [stopping?, goes]

theorem goesOn_of_interrupts {reply : Reply} (interrupted : reply.interrupts = true) :
    reply.goesOn = true ∧ reply.bytes = [] := by
  cases reply with
  | gives bytes => cases interrupted
  | fails error => exact ⟨interrupted, rfl⟩

/-- Interruptions among some replies change neither what they give nor what stops a request. -/
theorem filter_not_interrupts (replies : List Reply) :
    given ((replies.filter (!·.interrupts)).takeWhile goesOn) = given (replies.takeWhile goesOn) ∧
      stopping? (replies.filter (!·.interrupts)) = stopping? replies := by
  induction replies with
  | nil => exact ⟨rfl, rfl⟩
  | cons reply rest ih =>
      cases interrupted : reply.interrupts with
      | true =>
          obtain ⟨goes, nothing⟩ := goesOn_of_interrupts interrupted
          simpa [interrupted, stopping?_cons, goes, nothing] using ih
      | false =>
          cases goes : reply.goesOn with
          | true => simpa [interrupted, stopping?_cons, goes] using ih
          | false => simp [interrupted, stopping?_cons, goes]

/-- A request is stopped by a failure, or by nothing more being given. -/
theorem stop_stopping? (replies : List Reply) :
    (∀ error, stop (stopping? replies) = .failed error ↔ stopping? replies = some (.fails error)) ∧
      (stop (stopping? replies) = .ended ↔
        stopping? replies = none ∨ stopping? replies = some (.gives [])) := by
  rcases found : stopping? replies with _ | ⟨bytes⟩ | ⟨error⟩
  · simp [stop]
  · have stops := List.find?_some found
    have empty : bytes = [] := by simpa [goesOn] using stops
    simp [stop, empty]
  · simp [stop]

end Reply

namespace Replies

open Reply

variable {asked : List Nat} {position missing : Nat} {reply : Reply} {rest : List Reply}

/-! ## One read -/

theorem fill_nil (wanting : 0 < missing) :
    fill (⟨[], asked, position⟩ : Replies) missing =
      ⟨[], .ended, ⟨[], asked ++ [missing], position⟩⟩ := by
  rw [fill_eq, if_neg (Nat.ne_of_gt wanting)]
  rfl

/-- A reply that stops a request gives nothing and is the last one to be asked for. -/
theorem fill_of_stops (wanting : 0 < missing) (stops : reply.goesOn = false) :
    fill (⟨reply :: rest, asked, position⟩ : Replies) missing =
      ⟨[], Reply.stop reply, ⟨rest, asked ++ [missing], position⟩⟩ := by
  rw [fill_eq, if_neg (Nat.ne_of_gt wanting)]
  cases reply with
  | gives bytes =>
      have empty : bytes = [] := by simpa [goesOn] using stops
      simp [ByteSource.read, read, empty, Reply.stop]
  | fails error =>
      have lasting : ¬ error.Passing := by simpa [goesOn] using stops
      simp [ByteSource.read, read, lasting, Reply.stop]

/-- Behind a reply that a request goes on over, the rest is filled by the others. -/
theorem fill_of_goesOn (wanting : 0 < missing) (goes : reply.goesOn = true) :
    fill (⟨reply :: rest, asked, position⟩ : Replies) missing =
      (fill (⟨rest, asked ++ [missing], position + (reply.bytes.take missing).length⟩ : Replies)
        (missing - reply.bytes.length)).behind (reply.bytes.take missing) := by
  rw [fill_eq, if_neg (Nat.ne_of_gt wanting)]
  cases reply with
  | gives bytes =>
      obtain ⟨count, rfl⟩ := Nat.exists_eq_succ_of_ne_zero (Nat.ne_of_gt wanting)
      cases bytes with
      | nil => cases goes
      | cons byte more =>
          have left : count + 1 - (min count more.length + 1) =
              count + 1 - (more.length + 1) := by omega
          simp [ByteSource.read, read, Reply.bytes, left]
  | fails error =>
      have passing : error.Passing := by simpa [goesOn] using goes
      simp [ByteSource.read, read, passing, Reply.bytes, Filling.behind]

/-! ## A whole request -/

/-- What a request delivers and how it stops, read off the replies. -/
theorem fill_eq_given (coming : List Reply) :
    (fill (⟨coming, asked, position⟩ : Replies) missing).delivered =
        (given (coming.takeWhile goesOn)).take missing ∧
      (fill (⟨coming, asked, position⟩ : Replies) missing).stop =
        if missing ≤ (given (coming.takeWhile goesOn)).length then .complete
        else Reply.stop (stopping? coming) := by
  induction coming generalizing asked position missing with
  | nil =>
      rcases Nat.eq_zero_or_pos missing with rfl | wanting
      · simp
      · simp [fill_nil wanting, stopping?, Reply.stop, Nat.ne_of_gt wanting]
  | cons reply rest ih =>
      rcases Nat.eq_zero_or_pos missing with rfl | wanting
      · simp
      · cases goes : reply.goesOn with
        | false => simp [fill_of_stops wanting goes, stopping?_cons, goes, Nat.ne_of_gt wanting]
        | true =>
            rw [fill_of_goesOn wanting goes]
            simp [Filling.behind, ih, stopping?_cons, goes, List.take_append, Nat.add_comm]

/--
A source after so many calls of one request: as many replies were used, each call
asked for exactly the part still missing in front of it, and none was made with
nothing missing.
-/
structure Asked (before : Replies) (missing calls : Nat) (after : Replies) : Prop where
  coming : after.coming = before.coming.drop calls
  asked : after.asked = before.asked ++ (List.range calls).map fun call =>
    missing - (given (before.coming.take call)).length
  needed : ∀ call < calls, (given (before.coming.take call)).length < missing

/-- The call that a request begins with, in front of the calls that follow. -/
theorem Asked.cons {calls : Nat} {after : Replies} {place : Nat} (wanting : 0 < missing)
    (others : Asked ⟨rest, asked ++ [missing], place⟩ (missing - reply.bytes.length) calls after) :
    Asked ⟨reply :: rest, asked, position⟩ missing (calls + 1) after := by
  constructor
  · simpa using others.coming
  · rw [others.asked, List.range_succ_eq_map, List.map_cons, List.map_map, List.append_assoc]
    simp [Function.comp_def, Nat.sub_sub]
  · intro call before
    cases call with
    | zero => simpa using wanting
    | succ call =>
        have needed : (given (rest.take call)).length < missing - reply.bytes.length :=
          others.needed call (Nat.lt_of_succ_lt_succ before)
        simp only [List.take_succ_cons, given_cons, List.length_append]
        omega

/--
The calls of a request: up to the one that fills it, or up to the first that
stops it. The position moves by what was delivered.
-/
theorem asked_fill (coming : List Reply) :
    (fill (⟨coming, asked, position⟩ : Replies) missing).source.position =
        position + (fill (⟨coming, asked, position⟩ : Replies) missing).delivered.length ∧
      ∃ calls, Asked ⟨coming, asked, position⟩ missing calls
          (fill (⟨coming, asked, position⟩ : Replies) missing).source ∧
        if missing ≤ (given (coming.takeWhile goesOn)).length then
          calls ≤ (coming.takeWhile goesOn).length ∧ missing ≤ (given (coming.take calls)).length
        else calls = (coming.takeWhile goesOn).length + 1 := by
  induction coming generalizing asked position missing with
  | nil =>
      rcases Nat.eq_zero_or_pos missing with rfl | wanting
      · exact ⟨by simp, 0, ⟨by simp, by simp, by simp⟩, by simp⟩
      · rw [fill_nil wanting]
        exact ⟨by simp, 1, ⟨by simp, by simp, by simpa using wanting⟩, by simp; omega⟩
  | cons reply rest ih =>
      rcases Nat.eq_zero_or_pos missing with rfl | wanting
      · exact ⟨by simp, 0, ⟨by simp, by simp, by simp⟩, by simp⟩
      · cases goes : reply.goesOn with
        | false =>
            rw [fill_of_stops wanting goes]
            refine ⟨by simp, 1, ⟨by simp, by simp, by simpa using wanting⟩, ?_⟩
            simp [goes]; omega
        | true =>
            rw [fill_of_goesOn wanting goes]
            obtain ⟨moved, calls, others, ending⟩ := @ih (asked ++ [missing])
              (position + (reply.bytes.take missing).length) (missing - reply.bytes.length)
            refine ⟨?_, calls + 1, others.cons wanting, ?_⟩
            · simp only [Filling.behind, moved, List.length_append]
              omega
            · simp only [goes, List.takeWhile_cons_of_pos, given_cons, List.length_append,
                List.length_cons, List.take_succ_cons]
              split at ending <;> split <;> omega

/-- How a request is answered, read off the replies. -/
theorem answer_fill (coming : List Reply) (offset : Nat) :
    let filling := fill (⟨coming, asked, position⟩ : Replies) missing
    let given := given (coming.takeWhile goesOn)
    (filling.answer offset missing = .ok () ↔ missing ≤ given.length) ∧
      (∀ place expected count,
        filling.answer offset missing = .error (.shortRead place expected count) ↔
          given.length < missing ∧
            (stopping? coming = none ∨ stopping? coming = some (.gives [])) ∧
            place = offset ∧ expected = missing ∧ count = filling.delivered.length) ∧
      ∀ error, filling.answer offset missing = .error (.device error) ↔
        given.length < missing ∧ stopping? coming = some (.fails error) := by
  intro filling given
  have stop : filling.stop =
      if missing ≤ given.length then .complete else Reply.stop (stopping? coming) :=
    (fill_eq_given coming).2
  obtain ⟨byFailure, byEnd⟩ := stop_stopping? coming
  refine ⟨?_, ?_, ?_⟩
  · rw [Filling.answer_eq_ok_iff, fill_complete_iff, (fill_eq_given coming).1, List.length_take]
    change min missing given.length = missing ↔ _
    omega
  · intro place expected count
    rw [Filling.answer_eq_shortRead_iff, stop, ← byEnd]
    split
    · next enough => simp [Nat.not_lt_of_le enough]
    · next short => simp [Nat.lt_of_not_le short]
  · intro error
    rw [Filling.answer_eq_device_iff, stop, ← byFailure]
    split
    · next enough => simp [Nat.not_lt_of_le enough]
    · next short => simp [Nat.lt_of_not_le short]

/-- A request is filled in the same way when no read of it is interrupted. -/
theorem fill_filter_not_interrupts (coming : List Reply) :
    let quiet := fill (⟨coming.filter (!·.interrupts), asked, position⟩ : Replies) missing
    let filling := fill (⟨coming, asked, position⟩ : Replies) missing
    quiet.delivered = filling.delivered ∧ quiet.stop = filling.stop ∧
      quiet.source.position = filling.source.position := by
  intro quiet filling
  obtain ⟨sameGiven, sameStop⟩ := filter_not_interrupts coming
  have delivered : quiet.delivered = filling.delivered := by
    rw [(fill_eq_given _).1, (fill_eq_given coming).1, sameGiven]
  refine ⟨delivered, ?_, ?_⟩
  · rw [(fill_eq_given _).2, (fill_eq_given coming).2, sameGiven, sameStop]
  · rw [(asked_fill _).1, (asked_fill coming).1, delivered]

/-- Whatever the source, a request of it is filled as by a list of replies. -/
theorem exists_replies {σ : Type} [ByteSource σ] (source : σ) (missing : Nat) :
    ∃ coming, ∀ asked position,
      (fill (⟨coming, asked, position⟩ : Replies) missing).delivered =
          (fill source missing).delivered ∧
        (fill (⟨coming, asked, position⟩ : Replies) missing).stop = (fill source missing).stop := by
  fun_induction fill source missing with
  | case1 => exact ⟨[], fun asked position => by simp⟩
  | case2 source missing wanting =>
      refine ⟨[], fun asked position => ?_⟩
      simp [fill_nil (Nat.pos_of_ne_zero wanting)]
  | case3 source missing wanting byte more next answer ih =>
      obtain ⟨coming, same⟩ := ih
      refine ⟨.gives (byte :: more) :: coming, fun asked position => ?_⟩
      rw [fill_of_goesOn (Nat.pos_of_ne_zero wanting) rfl]
      have front : (byte :: more).take missing = byte :: more :=
        List.take_of_length_le (ByteSource.read_length_le answer)
      simpa [Filling.behind, Reply.bytes, front] using same _ _
  | case4 source missing wanting error next answer passing ih =>
      obtain ⟨coming, same⟩ := ih
      refine ⟨.fails error :: coming, fun asked position => ?_⟩
      rw [fill_of_goesOn (Nat.pos_of_ne_zero wanting) (by simpa [goesOn] using passing)]
      simpa [Filling.behind, Reply.bytes] using same _ _
  | case5 source missing wanting error next answer lasting =>
      refine ⟨[.fails error], fun asked position => ?_⟩
      rw [fill_of_stops (Nat.pos_of_ne_zero wanting) (by simpa [goesOn] using lasting)]
      exact ⟨rfl, rfl⟩

/--
A request puts at the front of a buffer what the replies in front of the first
that stops it give, leaves the rest of the buffer, and moves the source by just
as much. It is answered by success when they give enough, else by how the first
that stops it does so. Each call asks for what is still missing, and none is made
when nothing is. Interruptions change nothing of this.
-/
theorem fill_by_replies (replies : Replies) (buffer : List UInt8) (offset : Nat) :
    let filling := fill replies buffer.length
    let answer := filling.answer offset buffer.length
    let got := filling.delivered.length
    let run := replies.coming.takeWhile goesOn
    let quiet := fill { replies with coming := replies.coming.filter (!·.interrupts) } buffer.length
    filling.delivered = (given run).take buffer.length ∧
      (filling.onto buffer).take got = filling.delivered ∧
      (filling.onto buffer).drop got = buffer.drop got ∧
      filling.source.position = replies.position + got ∧
      (∃ calls, Asked replies buffer.length calls filling.source ∧
        if buffer.length ≤ (given run).length then
          calls ≤ run.length ∧ buffer.length ≤ (given (replies.coming.take calls)).length
        else calls = run.length + 1) ∧
      (answer = .ok () ↔ buffer.length ≤ (given run).length) ∧
      (∀ place expected count, answer = .error (.shortRead place expected count) ↔
        (given run).length < buffer.length ∧
          (stopping? replies.coming = none ∨ stopping? replies.coming = some (.gives [])) ∧
          place = offset ∧ expected = buffer.length ∧ count = got) ∧
      (∀ error, answer = .error (.device error) ↔
        (given run).length < buffer.length ∧ stopping? replies.coming = some (.fails error)) ∧
      quiet.delivered = filling.delivered ∧ quiet.stop = filling.stop ∧
      quiet.source.position = filling.source.position := by
  intro filling answer got run quiet
  obtain ⟨moved, calls⟩ := asked_fill replies.coming
  obtain ⟨filled, cut, failed⟩ := answer_fill replies.coming offset
  exact ⟨(fill_eq_given replies.coming).1, List.take_left, List.drop_left, moved, calls, filled, cut,
    failed, fill_filter_not_interrupts replies.coming⟩

end Replies

end TrackImage.Device
