import TrackImage.Proofs.Device.Failing

/-!
# Accepted bytes survive failures

Requests are made of a batcher one after the other, whatever became of those
before. A request that is granted puts its bytes behind what there is, and one
that fails takes nothing of that away. So the bytes of the granted requests are
always there in their order, in the sink and then in the buffer; what else is
there was sent twice, or came with a request that failed.
-/

namespace TrackImage.Batcher

open Device

/-! ## Requests made whatever becomes of them -/

section Runs

variable {τ : Type} [ByteSink τ]

/-- The batcher after some requests, whatever each of them answered. -/
def served (batcher : Batcher τ) : List Request → Batcher τ
  | [] => batcher
  | request :: rest => (batcher.serve request).2.served rest

/-- Those of some requests that succeed when they are made one after the other. -/
def granted (batcher : Batcher τ) : List Request → List Request
  | [] => []
  | request :: rest =>
      match batcher.serve request with
      | (.error _, next) => next.granted rest
      | (.ok _, next) => request :: next.granted rest

variable {batcher next : Batcher τ} {request : Request}

theorem served_cons {answer : Except IoError Nat} (answered : batcher.serve request = (answer, next))
    (rest : List Request) : batcher.served (request :: rest) = next.served rest := by
  rw [served, answered]

theorem granted_cons_of_ok {count : Nat} (done : batcher.serve request = (.ok count, next))
    (rest : List Request) : batcher.granted (request :: rest) = request :: next.granted rest := by
  rw [granted, done]

theorem granted_cons_of_error {error : IoError} (failed : batcher.serve request = (.error error, next))
    (rest : List Request) : batcher.granted (request :: rest) = next.granted rest := by
  rw [granted, failed]

/-- No request is granted that was not made, and the order stays. -/
theorem granted_sublist (batcher : Batcher τ) (requests : List Request) :
    (batcher.granted requests).Sublist requests := by
  induction requests generalizing batcher with
  | nil => exact List.Sublist.refl _
  | cons request rest ih =>
      rcases answered : batcher.serve request with ⟨error | count, next⟩
      · rw [granted_cons_of_error answered]
        exact (ih next).trans (List.sublist_cons_self _ _)
      · rw [granted_cons_of_ok answered]
        exact (ih next).cons_cons request

end Runs

/-- When every request is granted none of them fails. -/
theorem serves_of_granted {batcher : Batcher Sink} {requests : List Request}
    (all : batcher.granted requests = requests) :
    ∃ counts, Serves batcher requests counts (batcher.served requests) := by
  induction requests generalizing batcher with
  | nil => exact ⟨[], .refl batcher⟩
  | cons request rest ih =>
      rcases answered : batcher.serve request with ⟨error | count, next⟩
      · have fewer := (next.granted_sublist rest).length_le
        rw [granted_cons_of_error answered] at all
        rw [all, List.length_cons] at fewer
        omega
      · rw [granted_cons_of_ok answered] at all
        obtain ⟨counts, others⟩ := ih (List.cons.inj all).2
        rw [served_cons answered]
        exact ⟨count :: counts, .next answered others⟩

/-- When every request is granted the bytes of all come behind what the sink took before. -/
theorem contents_of_granted {sink : Sink} {capacity : Nat} {requests : List Request}
    (all : (around sink capacity).granted requests = requests) :
    ((around sink capacity).served requests).contents =
      sink.takenBytes ++ Request.offered requests := by
  obtain ⟨counts, serves⟩ := serves_of_granted all
  obtain ⟨held, -⟩ := (HasAccepted.around sink capacity).serves serves
  exact held.contents_eq

/-! ## What is kept -/

variable {before batcher next : Batcher Sink} {request : Request} {bytes : List UInt8}

/-- Since an earlier state these bytes were granted, and all there was is still there. -/
structure Keeps (before : Batcher Sink) (bytes : List UInt8) (batcher : Batcher Sink) : Prop where
  taken : before.inner.takenBytes <+: batcher.inner.takenBytes
  contents : (before.contents ++ bytes).Sublist batcher.contents
  accepted : batcher.accepted = before.accepted + bytes.length

namespace Keeps

theorem refl (batcher : Batcher Sink) : Keeps batcher [] batcher where
  taken := List.prefix_rfl
  contents := by
    simp only [List.append_nil, List.Sublist.refl]
  accepted := rfl

/-- A request that is granted comes behind what is kept. -/
theorem grant {count : Nat} (keeps : Keeps before bytes batcher)
    (done : batcher.serve request = (.ok count, next)) :
    Keeps before (bytes ++ request.bytes) next := by
  obtain ⟨-, counted, -, -, out, taken, -⟩ := serve_eq_ok done
  constructor
  · exact keeps.taken.trans (taken ▸ List.prefix_append _ _)
  · rw [contents_of_serve done, ← List.append_assoc]
    exact keeps.contents.append_right _
  · rw [counted, keeps.accepted, List.length_append, Nat.add_assoc]

/-- A request that fails leaves what is kept. -/
theorem fail {error : IoError} (keeps : Keeps before bytes batcher)
    (failed : batcher.serve request = (.error error, next)) : Keeps before bytes next := by
  have fails := fails_of_serve failed
  obtain ⟨out, taken, -⟩ := takenBytes_of_serve_error failed
  constructor
  · exact keeps.taken.trans (taken ▸ List.prefix_append _ _)
  · exact keeps.contents.trans fails.contents_sublist
  · exact fails.accepted_eq.trans keeps.accepted

/-- Any requests, made whatever became of those before. -/
theorem served (keeps : Keeps before bytes batcher) (requests : List Request) :
    Keeps before (bytes ++ Request.offered (batcher.granted requests)) (batcher.served requests) := by
  induction requests generalizing batcher bytes with
  | nil =>
      rw [granted, Request.offered, List.flatMap_nil, List.append_nil]
      exact keeps
  | cons request rest ih =>
      rcases answered : batcher.serve request with ⟨error | count, next⟩
      · rw [served_cons answered, granted_cons_of_error answered]
        exact ih (keeps.fail answered)
      · rw [served_cons answered, granted_cons_of_ok answered, Request.offered_cons,
          ← List.append_assoc]
        exact ih (keeps.grant answered)

/-- What is kept of a fresh batcher comes behind what its sink took before. -/
theorem exists_out {sink : Sink} {capacity : Nat} (keeps : Keeps (around sink capacity) bytes batcher) :
    ∃ out, batcher.inner.takenBytes = sink.takenBytes ++ out ∧
      bytes.Sublist (out ++ batcher.pendingBytes) := by
  obtain ⟨out, taken⟩ := keeps.taken
  have whole := keeps.contents
  rw [contents_around, Batcher.contents, ← taken, List.append_assoc] at whole
  exact ⟨out, taken.symm, (List.append_sublist_append_left _).mp whole⟩

/-- A flush that succeeds brings all that is kept into the sink. -/
theorem flush {sink : Sink} {capacity : Nat} (keeps : Keeps (around sink capacity) bytes batcher)
    (flushed : batcher.flush = (.ok (), next)) :
    next.pendingBytes = [] ∧
      ∃ out, next.inner.takenBytes = sink.takenBytes ++ out ∧ bytes.Sublist out := by
  obtain ⟨empty, taken⟩ := takenBytes_of_flush flushed
  obtain ⟨out, before, whole⟩ := keeps.exists_out
  refine ⟨empty, out ++ batcher.pendingBytes, ?_, whole⟩
  rw [taken, Batcher.contents, before, List.append_assoc]

end Keeps

/--
After any requests, however many of them failed, the bytes of those that were
granted are in the sink and the buffer in their order, and they are counted. A
flush that succeeds leaves nothing in the buffer, so all of them are in the sink;
and a sink that takes what it is given makes no request fail.
-/
theorem granted_survive (sink : Sink) (capacity : Nat) (requests : List Request) :
    let batcher := (around sink capacity).served requests
    let bytes := Request.offered ((around sink capacity).granted requests)
    batcher.accepted = bytes.length ∧
      (∃ out, batcher.inner.takenBytes = sink.takenBytes ++ out ∧
        bytes.Sublist (out ++ batcher.pendingBytes)) ∧
      (∀ next, batcher.flush = (.ok (), next) → next.pendingBytes = [] ∧
        ∃ out, next.inner.takenBytes = sink.takenBytes ++ out ∧ bytes.Sublist out) ∧
      (∀ inner next, batcher.intoInner = (.ok inner, next) →
        ∃ out, inner.takenBytes = sink.takenBytes ++ out ∧ bytes.Sublist out) ∧
      ∀ request, batcher.inner.Accepting (batcher.pendingBytes ++ request.bytes).length →
        ∃ count next, batcher.serve request = (.ok count, next) := by
  intro batcher bytes
  have keeps : Keeps (around sink capacity) bytes batcher :=
    (Keeps.refl (around sink capacity)).served requests
  refine ⟨keeps.accepted.trans (Nat.zero_add _), keeps.exists_out, ?_, ?_, ?_⟩
  · intro next flushed
    exact keeps.flush flushed
  · intro inner next done
    obtain ⟨flushed, rfl⟩ := intoInner_eq_ok done
    exact (keeps.flush flushed).2
  · intro request willing
    exact serve_ok_of_accepting willing

/-- A write and a flush fail, the first after two of its bytes, and the calls go on behind them. -/
theorem granted_survive_failed_write :
    let error : IoError := ⟨.named "Other", "boom", []⟩
    let sink : Sink :=
      { maxWrite := some 2, writeFaults := [⟨1, .fails error⟩], flushFaults := [⟨0, error⟩] }
    let requests : List Request :=
      [.write [1, 2, 3], .write [4, 5], .write [6], .flush, .write [7]]
    (around sink 4).granted requests = [.write [1, 2, 3], .write [6], .write [7]] ∧
      ((around sink 4).served requests).accepted = 5 ∧
      ∃ next, ((around sink 4).served requests).flush = (.ok (), next) ∧
        next.pendingBytes = [] ∧ next.inner.takenBytes = [1, 2, 1, 2, 3, 4, 5, 6, 7] ∧
        [1, 2, 3, 6, 7].Sublist next.inner.takenBytes := by
  intro error sink requests
  have granted : (around sink 4).granted requests = [.write [1, 2, 3], .write [6], .write [7]] := by
    decide +kernel
  have flushed : ((around sink 4).served requests).flush =
      (.ok (), ((around sink 4).served requests).flush.2) := by
    refine Prod.ext ?_ rfl
    decide +kernel
  have taken : ((around sink 4).served requests).flush.2.inner.takenBytes =
      [1, 2, 1, 2, 3, 4, 5, 6, 7] := by
    decide +kernel
  obtain ⟨accepted, -, after, -, -⟩ := granted_survive sink 4 requests
  obtain ⟨empty, out, same, whole⟩ := after _ flushed
  rw [granted] at accepted whole
  obtain rfl : _ = out := same
  exact ⟨granted, accepted, _, flushed, empty, taken, whole⟩

end TrackImage.Batcher
