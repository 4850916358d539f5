import TrackImage.Device.Source
import TrackImage.Stream.Fill
import TrackImage.Stream.Measure

/-!
# Reading from an input device

No call changes what a source holds or what its script says: a source after
any calls is the source at another position with other call counts. What a
request is filled with is the slice of the data at the position, however short
the reads and whatever the faults.
-/

namespace TrackImage

namespace Filling

variable {σ : Type} {filling : Filling σ} {offset expected : Nat}

theorem answer_eq_ok_iff : filling.answer offset expected = .ok () ↔ filling.stop = .complete := by
  unfold answer
  cases filling.stop <;> simp

/-- What is answered by a failure was not filled. -/
theorem stop_ne_complete {failure : Failure}
    (missed : filling.answer offset expected = .error failure) : filling.stop ≠ .complete := by
  intro complete
  rw [answer_eq_ok_iff.mpr complete] at missed
  cases missed

/-- A request that is cut short is named by its place and by what it asked for. -/
theorem answer_eq_shortRead {place asked got : Nat}
    (cut : filling.answer offset expected = .error (.shortRead place asked got)) :
    place = offset ∧ asked = expected ∧ got = filling.delivered.length := by
  unfold answer at cut
  split at cut
  · cases cut
  · cases cut
    exact ⟨rfl, rfl, rfl⟩
  · cases cut

/-- A request is cut short just when the input ends under it. -/
theorem answer_eq_shortRead_iff {place asked got : Nat} :
    filling.answer offset expected = .error (.shortRead place asked got) ↔
      filling.stop = .ended ∧ place = offset ∧ asked = expected ∧
        got = filling.delivered.length := by
  constructor
  · intro cut
    refine ⟨?_, answer_eq_shortRead cut⟩
    unfold answer at cut
    split at cut
    · cases cut
    · next ended => exact ended
    · cases cut
  · rintro ⟨ended, rfl, rfl, rfl⟩
    simp only [answer, ended]

theorem answer_eq_device_iff {error : IoError} :
    filling.answer offset expected = .error (.device error) ↔ filling.stop = .failed error := by
  unfold answer
  cases filling.stop <;> simp

end Filling

/-- A request is filled by one read and by filling what it leaves missing. -/
theorem fill_eq {σ : Type} [ByteSource σ] (source : σ) (missing : Nat) :
    fill source missing =
      if missing = 0 then ⟨[], .complete, source⟩
      else match ByteSource.read source missing with
        | (.ok [], next) => ⟨[], .ended, next⟩
        | (.ok (byte :: rest), next) =>
            (fill next (missing - (rest.length + 1))).behind (byte :: rest)
        | (.error error, next) =>
            if error.Passing then fill next missing else ⟨[], .failed error, next⟩ := by
  rw [fill]
  split
  · rfl
  · split
    · next answer => simp only [answer]
    · next answer => simp only [answer]
    · next answer => simp only [answer, dite_eq_ite]

/-- A request that is cut short got less than it asked for. -/
theorem fill_answer_eq_shortRead {σ : Type} [ByteSource σ] {source : σ}
    {offset missing place asked got : Nat}
    (cut : (fill source missing).answer offset missing = .error (.shortRead place asked got)) :
    place = offset ∧ asked = missing ∧ got < asked := by
  obtain ⟨rfl, rfl, rfl⟩ := Filling.answer_eq_shortRead cut
  have within := fill_delivered_length_le source asked
  have short := mt (fill_complete_iff source asked).mpr (Filling.stop_ne_complete cut)
  exact ⟨rfl, rfl, Nat.lt_of_le_of_ne within short⟩

/-- One read can deliver everything. -/
theorem fill_of_read_all {σ : Type} [ByteSource σ] {source next : σ} {missing : Nat}
    {bytes : List UInt8} (asked : 0 < missing)
    (answer : ByteSource.read source missing = (.ok bytes, next)) (all : bytes.length = missing) :
    fill source missing = ⟨bytes, .complete, next⟩ := by
  rw [fill_eq, if_neg (Nat.ne_of_gt asked), answer]
  cases bytes with
  | nil => exact absurd all (Nat.ne_of_lt asked)
  | cons byte rest =>
      change (fill next (missing - (rest.length + 1))).behind (byte :: rest) = _
      rw [← all, List.length_cons, Nat.sub_self, fill_zero, Filling.behind, List.append_nil]

/-- A lasting error of the first read leaves nothing delivered. -/
theorem fill_of_read_error {σ : Type} [ByteSource σ] {source next : σ} {missing : Nat}
    {error : IoError} (asked : 0 < missing)
    (answer : ByteSource.read source missing = (.error error, next)) (lasting : ¬ error.Passing) :
    fill source missing = ⟨[], .failed error, next⟩ := by
  rw [fill_eq, if_neg (Nat.ne_of_gt asked), answer]
  exact if_neg lasting

namespace Device.Source

/-! ## The source after some calls -/

/-- The source at a position, with so many calls made. -/
def moved (source : Source) (position reads seeks : Nat) : Source :=
  { source with position, reads, seeks }

@[simp] theorem data_moved (source : Source) (position reads seeks : Nat) :
    (source.moved position reads seeks).data = source.data :=
  rfl

@[simp] theorem position_moved (source : Source) (position reads seeks : Nat) :
    (source.moved position reads seeks).position = position :=
  rfl

@[simp] theorem seeks_moved (source : Source) (position reads seeks : Nat) :
    (source.moved position reads seeks).seeks = seeks :=
  rfl

@[simp] theorem slice_moved (source : Source) (position reads seeks start stop : Nat) :
    (source.moved position reads seeks).slice start stop = source.slice start stop :=
  rfl

@[simp] theorem moved_moved (source : Source) (position reads seeks position' reads' seeks' : Nat) :
    (source.moved position reads seeks).moved position' reads' seeks' =
      source.moved position' reads' seeks' :=
  rfl

/-! ## Slices of the data -/

/-- All the bytes that a source holds. -/
def bytes (source : Source) : List UInt8 :=
  source.data.data.toList

@[simp] theorem length_bytes (source : Source) : source.bytes.length = source.data.size := by
  rw [bytes, Array.length_toList, ByteArray.size_data]

theorem slice_eq_extract (source : Source) (start stop : Nat) :
    source.slice start stop = source.bytes.extract start stop :=
  source.slice_eq start stop

@[simp] theorem slice_self (source : Source) (start : Nat) : source.slice start start = [] := by
  apply List.eq_nil_of_length_eq_zero
  rw [length_slice]
  omega

/-- A slice has just the bytes that the data reaches. -/
theorem slice_add_length (source : Source) (start stop : Nat) (ordered : start ≤ stop) :
    source.slice start (start + (source.slice start stop).length) = source.slice start stop := by
  rw [length_slice, slice_eq_extract, slice_eq_extract, List.extract_eq_take_drop,
    List.extract_eq_take_drop, List.take_eq_take_iff, List.length_drop, length_bytes]
  omega

/-- A slice and the one that follows it. -/
theorem slice_append (source : Source) (start first second : Nat) :
    source.slice start (start + first) ++ source.slice (start + first) (start + first + second) =
      source.slice start (start + (first + second)) := by
  simp only [slice_eq_extract, List.extract_eq_take_drop, Nat.add_sub_cancel_left, List.take_add,
    List.drop_drop]

/-! ## One read -/

/-- The ways a read can go. -/
inductive Reads (source : Source) (room : Nat) : Except IoError (List UInt8) × Source → Prop where
  | nothing (lapse : Fault.at? source.readFaults source.reads = some .nothing) :
      Reads source room (.ok [], source.moved source.position (source.reads + 1) source.seeks)
  | fails {error : IoError}
      (lapse : Fault.at? source.readFaults source.reads = some (.fails error)) :
      Reads source room
        (.error error, source.moved source.position (source.reads + 1) source.seeks)
  | delivers (clear : Fault.at? source.readFaults source.reads = none) :
      Reads source room (.ok (source.upcoming room),
        source.moved (source.position + (source.upcoming room).length) (source.reads + 1)
          source.seeks)

theorem reads_read (source : Source) (room : Nat) : Reads source room (source.read room) := by
  unfold read
  split
  · next lapse => exact .nothing lapse
  · next lapse => exact .fails lapse
  · next clear => exact .delivers clear

theorem read_eq_ok {source next : Source} {room : Nat} {bytes : List UInt8}
    (answer : source.read room = (.ok bytes, next)) :
    bytes = source.slice source.position (source.position + bytes.length) ∧
      next = source.moved (source.position + bytes.length) (source.reads + 1) source.seeks := by
  have went := source.reads_read room
  rw [answer] at went
  cases went with
  | nothing => exact ⟨(source.slice_self source.position).symm, rfl⟩
  | delivers => exact ⟨(source.slice_add_length _ _ (Nat.le_add_right _ _)).symm, rfl⟩

theorem read_eq_error {source next : Source} {room : Nat} {error : IoError}
    (answer : source.read room = (.error error, next)) :
    Fault.at? source.readFaults source.reads = some (.fails error) ∧
      next = source.moved source.position (source.reads + 1) source.seeks := by
  have went := source.reads_read room
  rw [answer] at went
  cases went with
  | fails lapse => exact ⟨lapse, rfl⟩

theorem read_of_fails {source : Source} {error : IoError}
    (lapse : Fault.at? source.readFaults source.reads = some (.fails error)) (room : Nat) :
    source.read room =
      (.error error, source.moved source.position (source.reads + 1) source.seeks) := by
  rw [read, lapse]
  rfl

/-! ## Filling a request -/

/-- The source has moved on by what was delivered; no seek was made. -/
theorem fill_source (source : Source) (missing : Nat) :
    ∃ reads, (fill source missing).source =
      source.moved (source.position + (fill source missing).delivered.length) reads
        source.seeks := by
  fun_induction fill source missing with
  | case1 source => exact ⟨source.reads, rfl⟩
  | case2 source missing _ next answer =>
      exact ⟨source.reads + 1, (read_eq_ok answer).2⟩
  | case3 source missing _ byte rest next answer ih =>
      obtain ⟨reads, same⟩ := ih
      obtain ⟨-, rfl⟩ := read_eq_ok answer
      refine ⟨reads, ?_⟩
      simp only [Filling.behind, List.length_append, ← Nat.add_assoc]
      exact same
  | case4 source missing _ error next answer _ ih =>
      obtain ⟨reads, same⟩ := ih
      obtain ⟨-, rfl⟩ := read_eq_error answer
      exact ⟨reads, same⟩
  | case5 source missing _ error next answer =>
      exact ⟨source.reads + 1, (read_eq_error answer).2⟩

theorem position_fill (source : Source) (missing : Nat) :
    (fill source missing).source.position =
      source.position + (fill source missing).delivered.length := by
  obtain ⟨reads, moved⟩ := source.fill_source missing
  rw [moved, position_moved]

/-- What was delivered stands in the data at the position. -/
theorem fill_delivered (source : Source) (missing : Nat) :
    (fill source missing).delivered =
      source.slice source.position
        (source.position + (fill source missing).delivered.length) := by
  fun_induction fill source missing with
  | case1 source => exact (source.slice_self source.position).symm
  | case2 source => exact (source.slice_self source.position).symm
  | case3 source missing _ byte rest next answer ih =>
      obtain ⟨front, rfl⟩ := read_eq_ok answer
      simp only [slice_moved, position_moved] at ih
      simp only [Filling.behind, List.length_append]
      rw [← slice_append, ← front, ← ih]
  | case4 source missing _ error next answer _ ih =>
      obtain ⟨-, rfl⟩ := read_eq_error answer
      exact ih
  | case5 source => exact (source.slice_self source.position).symm

/-- A request is filled only from data that reaches to its end. -/
theorem reaches_of_fill_complete {source : Source} {missing : Nat} (asked : 0 < missing)
    (complete : (fill source missing).stop = .complete) :
    source.position + missing ≤ source.data.size := by
  have length := (fill_complete_iff source missing).mp complete
  have delivered := congrArg List.length (fill_delivered source missing)
  rw [length_slice, length] at delivered
  omega

/-- What a complete filling gives and leaves. -/
theorem fill_of_complete {source : Source} {missing : Nat}
    (complete : (fill source missing).stop = .complete) :
    ∃ reads, fill source missing =
      ⟨source.slice source.position (source.position + missing), .complete,
        source.moved (source.position + missing) reads source.seeks⟩ := by
  obtain ⟨reads, moved⟩ := source.fill_source missing
  have delivered := source.fill_delivered missing
  rw [(fill_complete_iff source missing).mp complete] at moved delivered
  refine ⟨reads, ?_⟩
  rw [← delivered, ← complete, ← moved]

/-- A source that is not limited fills what it reaches by one read that goes well. -/
theorem fill_of_clear {source : Source} {missing : Nat} (asked : 0 < missing)
    (clear : Fault.at? source.readFaults source.reads = none) (unlimited : source.maxRead = none)
    (reaches : source.position + missing ≤ source.data.size) :
    fill source missing =
      ⟨source.slice source.position (source.position + missing), .complete,
        source.moved (source.position + missing) (source.reads + 1) source.seeks⟩ := by
  have whole : source.upcoming missing =
      source.slice source.position (source.position + missing) := by
    rw [upcoming, unlimited, Option.getD_none, Nat.min_self]
  have length : (source.upcoming missing).length = missing := by
    rw [whole, length_slice]
    omega
  have went := source.reads_read missing
  generalize answer : source.read missing = outcome at went
  cases went with
  | nothing lapse => rw [clear] at lapse; cases lapse
  | fails lapse => rw [clear] at lapse; cases lapse
  | delivers =>
      rw [length] at answer
      rw [← whole]
      exact fill_of_read_all asked answer length

/-! ## Sources without lasting faults -/

/-- Reads may be short and may be interrupted, and nothing else goes wrong. -/
structure OnlyInterrupted (source : Source) : Prop where
  reads : ∀ fault ∈ source.readFaults, ∃ error, fault.effect = .fails error ∧ error.Passing
  seeks : source.seekFaults = []
  moves : ∀ most, source.maxRead = some most → 0 < most

namespace OnlyInterrupted

/-- Nothing goes wrong with bytes in memory. -/
theorem ofBytes (bytes : ByteArray) : (Source.ofBytes bytes).OnlyInterrupted := by
  refine ⟨?_, rfl, ?_⟩
  · intro fault scripted
    cases scripted
  · intro most limited
    cases limited

variable {source : Source}

theorem moved (calm : source.OnlyInterrupted) (position reads seeks : Nat) :
    (source.moved position reads seeks).OnlyInterrupted :=
  ⟨calm.reads, calm.seeks, calm.moves⟩

theorem passing_of_at? (calm : source.OnlyInterrupted) {call : Nat} {lapse : Lapse}
    (found : Fault.at? source.readFaults call = some lapse) :
    ∃ error, lapse = .fails error ∧ error.Passing := by
  obtain ⟨fault, member, rfl⟩ := Option.map_eq_some_iff.mp found
  exact calm.reads fault (List.mem_of_find?_eq_some member)

theorem passing_of_read (calm : source.OnlyInterrupted) {next : Source} {room : Nat}
    {error : IoError} (answer : source.read room = (.error error, next)) : error.Passing := by
  obtain ⟨other, same, passing⟩ := calm.passing_of_at? (read_eq_error answer).1
  cases same
  exact passing

/-- Only the end of the data makes a read deliver nothing. -/
theorem size_le_of_read_nil (calm : source.OnlyInterrupted) {next : Source} {room : Nat}
    (asked : 0 < room) (answer : source.read room = (.ok [], next)) :
    source.data.size ≤ source.position := by
  have went := source.reads_read room
  generalize source.read room = outcome at went answer
  cases went with
  | nothing lapse =>
      obtain ⟨error, impossible, -⟩ := calm.passing_of_at? lapse
      cases impossible
  | fails => cases answer
  | delivers =>
      have nothing := congrArg List.length (Except.ok.inj (Prod.mk.inj answer).1)
      rw [upcoming, length_slice, List.length_nil] at nothing
      cases limit : source.maxRead with
      | none =>
          rw [limit, Option.getD_none] at nothing
          omega
      | some most =>
          have positive := calm.moves most limit
          rw [limit, Option.getD_some] at nothing
          omega

/-- A request is filled when the data reaches to its end, and cut short by the end otherwise. -/
theorem fill_stop (calm : source.OnlyInterrupted) (missing : Nat) :
    (fill source missing).stop =
      if missing ≤ source.data.size - source.position then .complete else .ended := by
  fun_induction fill source missing with
  | case1 source => rw [if_pos (Nat.zero_le _)]
  | case2 source missing asked next answer =>
      have ended := calm.size_le_of_read_nil (Nat.pos_of_ne_zero asked) answer
      rw [if_neg (by omega)]
  | case3 source missing asked byte rest next answer ih =>
      have bound := read_length_le answer
      obtain ⟨front, rfl⟩ := read_eq_ok answer
      have within := congrArg List.length front
      rw [length_slice] at within
      rw [Filling.behind, ih (calm.moved _ _ _)]
      simp only [data_moved, position_moved, List.length_cons] at within bound ⊢
      congr 1
      simp only [eq_iff_iff]
      omega
  | case4 source missing asked error next answer _ ih =>
      obtain ⟨-, rfl⟩ := read_eq_error answer
      exact ih (calm.moved _ _ _)
  | case5 source missing asked error next answer lasting =>
      exact absurd (calm.passing_of_read answer) lasting

/-- As much of a request is delivered as the data reaches. -/
theorem length_fill (calm : source.OnlyInterrupted) (missing : Nat) :
    (fill source missing).delivered.length = min missing (source.data.size - source.position) := by
  fun_induction fill source missing with
  | case1 source => exact (Nat.zero_min _).symm
  | case2 source missing asked next answer =>
      have ended := calm.size_le_of_read_nil (Nat.pos_of_ne_zero asked) answer
      rw [Nat.sub_eq_zero_of_le ended, Nat.min_zero, List.length_nil]
  | case3 source missing asked byte rest next answer ih =>
      have bound := read_length_le answer
      obtain ⟨front, rfl⟩ := read_eq_ok answer
      have within := congrArg List.length front
      rw [length_slice] at within
      rw [Filling.behind, List.length_append, ih (calm.moved _ _ _)]
      simp only [data_moved, position_moved, List.length_cons] at within bound ⊢
      omega
  | case4 source missing asked error next answer _ ih =>
      obtain ⟨-, rfl⟩ := read_eq_error answer
      exact ih (calm.moved _ _ _)
  | case5 source missing asked error next answer lasting =>
      exact absurd (calm.passing_of_read answer) lasting

/-- A request for more than the data reaches is reported with what there is. -/
theorem fill_answer_of_cut (calm : source.OnlyInterrupted) {missing : Nat} (offset : Nat)
    (cut : source.data.size - source.position < missing) :
    (fill source missing).answer offset missing =
      .error (.shortRead offset missing (source.data.size - source.position)) := by
  rw [Filling.answer, calm.fill_stop, if_neg (Nat.not_le.mpr cut), calm.length_fill,
    Nat.min_eq_right (Nat.le_of_lt cut)]

end OnlyInterrupted

/-! ## Seeks -/

theorem seek_eq_ok {source next : Source} {motion : Motion} {position : Nat}
    (answer : source.seek motion = (.ok position, next)) :
    position = source.target motion ∧
      next = source.moved position source.reads (source.seeks + 1) := by
  unfold seek at answer
  split at answer
  · simp at answer
  · simp only [Prod.mk.injEq, Except.ok.injEq] at answer
    obtain ⟨rfl, rfl⟩ := answer
    exact ⟨rfl, rfl⟩

/-- A seek that goes wrong leaves the position alone. -/
theorem seek_eq_error {source next : Source} {motion : Motion} {error : IoError}
    (answer : source.seek motion = (.error error, next)) :
    next = source.moved source.position source.reads (source.seeks + 1) := by
  unfold seek at answer
  split at answer
  · exact (Prod.mk.inj answer).2.symm
  · cases answer

theorem position_of_seek_forward {source next : Source} {distance position : Nat}
    (answer : source.seek (.forward distance) = (.ok position, next)) :
    next.position = source.position + distance := by
  obtain ⟨rfl, rfl⟩ := seek_eq_ok answer
  rfl

theorem seek_of_clear {source : Source} (clear : Fault.at? source.seekFaults source.seeks = none)
    (motion : Motion) :
    source.seek motion =
      (.ok (source.target motion),
        source.moved (source.target motion) source.reads (source.seeks + 1)) := by
  rw [seek, clear]
  rfl

theorem seek_of_fault {source : Source} {error : IoError}
    (fault : Fault.at? source.seekFaults source.seeks = some error) (motion : Motion) :
    source.seek motion =
      (.error error, source.moved source.position source.reads (source.seeks + 1)) := by
  rw [seek, fault]
  rfl

theorem seek_of_no_faults {source : Source} (free : source.seekFaults = []) (motion : Motion) :
    source.seek motion =
      (.ok (source.target motion),
        source.moved (source.target motion) source.reads (source.seeks + 1)) := by
  apply seek_of_clear
  rw [free, Fault.at?_nil]

theorem seek_ne_error {source stopped : Source} {motion : Motion} {error : IoError}
    (free : source.seekFaults = []) : ByteSource.seek source motion ≠ (.error error, stopped) := by
  intro missed
  have sought := seek_of_no_faults free motion
  rw [show source.seek motion = (.error error, stopped) from missed] at sought
  cases sought

/-- A source that was measured stands at its start, two seeks later. -/
theorem measure_eq_ok {source next : Source} {length : Nat}
    (answer : measure source = (.ok length, next)) :
    length = source.length ∧ next = source.moved 0 source.reads (source.seeks + 2) := by
  unfold measure at answer
  split at answer
  · simp at answer
  · next found middle toEnd =>
      split at answer
      · simp at answer
      · next start last toStart =>
          simp only [Prod.mk.injEq, Except.ok.injEq] at answer
          obtain ⟨rfl, rfl⟩ := answer
          obtain ⟨rfl, rfl⟩ := seek_eq_ok toEnd
          obtain ⟨rfl, rfl⟩ := seek_eq_ok toStart
          exact ⟨rfl, rfl⟩

theorem measure_of_clear {source : Source}
    (toEnd : Fault.at? source.seekFaults source.seeks = none)
    (toStart : Fault.at? source.seekFaults (source.seeks + 1) = none) :
    measure source = (.ok source.length, source.moved 0 source.reads (source.seeks + 2)) := by
  let ended := source.moved source.length source.reads (source.seeks + 1)
  have last : source.seek .toEnd = (.ok source.length, ended) := seek_of_clear toEnd .toEnd
  have first : ended.seek .toStart = (.ok 0, source.moved 0 source.reads (source.seeks + 2)) :=
    seek_of_clear toStart .toStart
  unfold measure
  simp only [ByteSource.seek]
  rw [last]
  simp only
  rw [first]

theorem OnlyInterrupted.seeks_clear {source : Source} (calm : source.OnlyInterrupted) (call : Nat) :
    Fault.at? source.seekFaults call = none := by
  rw [calm.seeks, Fault.at?_nil]

end Device.Source

end TrackImage
