import EventAsync.Buffer

/-!
# Transfers between a buffer and a socket

The callbacks of `WriteAwaiter` and `ReadExactlyAwaiter` are followed through
every schedule of partial progress.

`WriteAwaiter::on_write_ready` passes its whole limit to every call of
`evbuffer_write_atmost`, not the limit less what has been written.  A write of
the whole buffer is bounded by the buffer itself and always completes.  A write
of fewer bytes completes only if the counts accepted by the socket happen to
add up to the limit; otherwise it drains the rest of the buffer as well and
then fails.
-/

namespace EventAsync

open ByteCodec

namespace WriteAwaiter

variable {content : Bytes} {socket : Socket} {accepts : ℕ → ℕ+} {limit : ℕ}

/-- The bytes written by a number of calls that each may write up to the limit. -/
def acceptedBy (limit length : ℕ) (accepts : ℕ → ℕ+) : ℕ → ℕ
  | 0 => 0
  | calls + 1 =>
      acceptedBy limit length accepts calls +
        min (accepts calls : ℕ) (min limit (length - acceptedBy limit length accepts calls))

/-- The awaiter after some calls have written some bytes of the content. -/
def afterWriting (content : Bytes) (socket : Socket) (limit calls written : ℕ) :
    WriteAwaiter × Stream :=
  ({ limit := limit, bytesWritten := written, err := false },
    { buf := content.drop written
      socket :=
        { socket with
          sent := socket.sent ++ content.take written
          writeCalls := socket.writeCalls + calls } })

theorem evbufferWriteAtmost_afterWriting (calls : ℕ) {written : ℕ}
    (ready : ∀ call, socket.writes (socket.writeCalls + call) = .ready (accepts call))
    (positive : 0 < limit) (remaining : written < content.length) :
    (afterWriting content socket limit calls written).2.evbufferWriteAtmost limit =
      (some (min (accepts calls : ℕ) (min limit (content.length - written))),
        (afterWriting content socket limit (calls + 1)
          (written + min (accepts calls : ℕ) (min limit (content.length - written)))).2) := by
  have bound : (if (limit : ℤ) < 0 ∨ ((content.length - written : ℕ) : ℤ) < (limit : ℤ)
      then content.length - written else limit) = min limit (content.length - written) := by
    split <;> omega
  have nonzero : min limit (content.length - written) ≠ 0 := by omega
  simp only [Stream.evbufferWriteAtmost, afterWriting, List.length_drop, Int.toNat_natCast,
    bound, nonzero, if_false, ready calls, List.drop_drop, Prod.mk.injEq, true_and]
  rw [List.append_assoc, ← List.take_add, Nat.add_assoc]

theorem fire_afterWriting {calls written : ℕ}
    (ready : ∀ call, socket.writes (socket.writeCalls + call) = .ready (accepts call))
    (positive : 0 < limit) (remaining : written < content.length) :
    (Suspension.start (afterWriting content socket limit calls written)).fire onWriteReady =
      { state := afterWriting content socket limit (calls + 1)
          (written + min (accepts calls : ℕ) (min limit (content.length - written)))
        armed :=
          written + min (accepts calls : ℕ) (min limit (content.length - written)) ≠ limit
        resumptions :=
          if written + min (accepts calls : ℕ) (min limit (content.length - written)) = limit
          then 1 else 0 } := by
  have call := evbufferWriteAtmost_afterWriting calls ready positive remaining
  have nonnegative : ¬(limit : ℤ) < 0 := by omega
  generalize min (accepts calls : ℕ) (min limit (content.length - written)) = count at call ⊢
  have cast_ne : ((written + count : ℕ) : ℤ) ≠ (limit : ℤ) ↔ written + count ≠ limit := by
    omega
  simp only [afterWriting] at call ⊢
  simp only [Suspension.fire, Suspension.start, onWriteReady, nonnegative, if_false, call,
    cast_ne]
  by_cases hit : written + count = limit
  · simp [hit]
  · simp [hit]

theorem fire_afterWriting_empty {calls written : ℕ} (exhausted : content.length ≤ written) :
    ((Suspension.start (afterWriting content socket limit calls written)).fire
      onWriteReady).armed = false ∧
      ((Suspension.start (afterWriting content socket limit calls written)).fire
        onWriteReady).state.1.err = true := by
  have empty : content.drop written = [] := List.drop_eq_nil_of_le exhausted
  have nonnegative : ¬(limit : ℤ) < 0 := by omega
  simp [Suspension.fire, Suspension.start, onWriteReady, afterWriting, nonnegative, empty,
    Stream.evbufferWriteAtmost]

theorem acceptedBy_le_length (limit length : ℕ) (accepts : ℕ → ℕ+) (calls : ℕ) :
    acceptedBy limit length accepts calls ≤ length := by
  induction calls with
  | zero => simp [acceptedBy]
  | succ calls ih =>
      simp only [acceptedBy]
      omega

theorem acceptedBy_lt_succ {length calls : ℕ} (positive : 0 < limit)
    (remaining : acceptedBy limit length accepts calls < length) :
    acceptedBy limit length accepts calls < acceptedBy limit length accepts (calls + 1) := by
  have progress := (accepts calls).pos
  simp only [acceptedBy]
  omega

theorem acceptedBy_mono (limit length : ℕ) (accepts : ℕ → ℕ+) :
    Monotone (acceptedBy limit length accepts) := by
  apply monotone_nat_of_le_succ
  intro calls
  simp only [acceptedBy]
  omega

/-- While the limit has not been hit, the awaiter keeps writing or has failed. -/
theorem fired_of_not_hit
    (ready : ∀ call, socket.writes (socket.writeCalls + call) = .ready (accepts call))
    (positive : 0 < limit) (calls : ℕ)
    (notHit : ∀ call ≤ calls, acceptedBy limit content.length accepts call ≠ limit) :
    Suspension.fired onWriteReady calls
        (Suspension.start (afterWriting content socket limit 0 0)) =
      Suspension.start (afterWriting content socket limit calls
        (acceptedBy limit content.length accepts calls)) ∨
    ((Suspension.fired onWriteReady calls
        (Suspension.start (afterWriting content socket limit 0 0))).armed = false ∧
      (Suspension.fired onWriteReady calls
        (Suspension.start (afterWriting content socket limit 0 0))).state.1.err = true) := by
  induction calls with
  | zero => exact Or.inl rfl
  | succ calls ih =>
      rw [Suspension.fired_succ]
      rcases ih (fun call le => notHit call (by omega)) with writing | ⟨disarmed, failed⟩
      · rw [writing]
        by_cases remaining : acceptedBy limit content.length accepts calls < content.length
        · left
          rw [fire_afterWriting ready positive remaining]
          have missed := notHit (calls + 1) le_rfl
          simp only [acceptedBy] at missed ⊢
          simp [Suspension.start, missed]
        · right
          exact fire_afterWriting_empty (by omega)
      · right
        rw [Suspension.fire_of_disarmed disarmed]
        exact ⟨disarmed, failed⟩

/-- Until a call hits the limit for the first time, the event stays pending. -/
theorem fired_before_hit
    (ready : ∀ call, socket.writes (socket.writeCalls + call) = .ready (accepts call))
    (positive : 0 < limit) (fits : limit ≤ content.length) {calls : ℕ}
    (notHit : ∀ call ≤ calls, acceptedBy limit content.length accepts call ≠ limit)
    (hit : acceptedBy limit content.length accepts (calls + 1) = limit) {call : ℕ}
    (le : call ≤ calls) :
    acceptedBy limit content.length accepts call < content.length ∧
      Suspension.fired onWriteReady call
          (Suspension.start (afterWriting content socket limit 0 0)) =
        Suspension.start (afterWriting content socket limit call
          (acceptedBy limit content.length accepts call)) := by
  have below : ∀ call ≤ calls,
      acceptedBy limit content.length accepts call < content.length := by
    intro call le
    have mono := acceptedBy_mono limit content.length accepts (show call ≤ calls + 1 by omega)
    have missed := notHit call le
    omega
  refine ⟨below call le, ?_⟩
  induction call with
  | zero => rfl
  | succ call ih =>
      have missed := notHit (call + 1) le
      rw [Suspension.fired_succ, ih (by omega),
        fire_afterWriting ready positive (below call (by omega))]
      simp only [acceptedBy] at missed ⊢
      simp [Suspension.start, missed]

/-- When a call hits the limit for the first time, the coroutine is resumed. -/
theorem fired_of_hit
    (ready : ∀ call, socket.writes (socket.writeCalls + call) = .ready (accepts call))
    (positive : 0 < limit) (fits : limit ≤ content.length) {calls : ℕ}
    (notHit : ∀ call ≤ calls, acceptedBy limit content.length accepts call ≠ limit)
    (hit : acceptedBy limit content.length accepts (calls + 1) = limit) :
    Suspension.fired onWriteReady (calls + 1)
        (Suspension.start (afterWriting content socket limit 0 0)) =
      { state := afterWriting content socket limit (calls + 1) limit
        armed := false
        resumptions := 1 } := by
  rcases fired_before_hit ready positive fits notHit hit le_rfl with ⟨below, writing⟩
  rw [Suspension.fired_succ, writing, fire_afterWriting ready positive below]
  simp only [acceptedBy] at hit
  simp [hit]

theorem exists_first_hit {length : ℕ} (positive : 0 < limit)
    (hit : ∃ calls, acceptedBy limit length accepts calls = limit) :
    ∃ calls, acceptedBy limit length accepts (calls + 1) = limit ∧
      ∀ call ≤ calls, acceptedBy limit length accepts call ≠ limit := by
  classical
  have found := Nat.find_spec hit
  have first : ∀ call < Nat.find hit, acceptedBy limit length accepts call ≠ limit :=
    fun call earlier => Nat.find_min hit earlier
  cases calls : Nat.find hit with
  | zero =>
      rw [calls] at found
      simp only [acceptedBy] at found
      omega
  | succ calls' =>
      rw [calls] at found first
      exact ⟨calls', found, fun call le => first call (by omega)⟩

/-- Writing everything a buffer holds always hits the limit. -/
theorem exists_hit_of_whole (accepts : ℕ → ℕ+) {length : ℕ} (positive : 0 < length) :
    ∃ calls, calls ≤ length ∧ acceptedBy length length accepts calls = length := by
  have progress : ∀ calls, calls ≤ acceptedBy length length accepts calls ∨
      acceptedBy length length accepts calls = length := by
    intro calls
    induction calls with
    | zero => exact Or.inl (Nat.zero_le _)
    | succ calls ih =>
        by_cases remaining : acceptedBy length length accepts calls < length
        · have later := acceptedBy_lt_succ positive remaining
          left
          omega
        · right
          have bound := acceptedBy_le_length length length accepts (calls + 1)
          have mono := acceptedBy_mono length length accepts (Nat.le_add_right calls 1)
          have before := acceptedBy_le_length length length accepts calls
          omega
  refine ⟨length, le_rfl, ?_⟩
  rcases progress length with enough | hit
  · have bound := acceptedBy_le_length length length accepts length
    omega
  · exact hit

/-- As long as the counts stay within the limit, every call writes what the socket accepts. -/
theorem acceptedBy_eq_sum {length calls : ℕ} (fits : limit ≤ length)
    (within : ∑ call ∈ Finset.range calls, (accepts call : ℕ) ≤ limit) :
    acceptedBy limit length accepts calls =
      ∑ call ∈ Finset.range calls, (accepts call : ℕ) := by
  induction calls with
  | zero => simp [acceptedBy]
  | succ calls ih =>
      rw [Finset.sum_range_succ] at within ⊢
      simp only [acceptedBy]
      rw [ih (by omega)]
      omega

/-- After a first call that leaves something to write, a later call either stays within the
limit or goes beyond it for good. -/
theorem acceptedBy_ne_limit {length : ℕ} (shorter : limit < length)
    (firstShort : (accepts 0 : ℕ) < limit)
    (neverSums : ∀ calls, ∑ call ∈ Finset.range calls, (accepts call : ℕ) ≠ limit)
    (calls : ℕ) : acceptedBy limit length accepts calls ≠ limit := by
  have beyond : ∀ calls, acceptedBy limit length accepts calls =
      ∑ call ∈ Finset.range calls, (accepts call : ℕ) ∧
        ∑ call ∈ Finset.range calls, (accepts call : ℕ) < limit ∨
      limit < acceptedBy limit length accepts calls := by
    intro calls
    induction calls with
    | zero =>
        refine Or.inl ⟨rfl, ?_⟩
        simp only [Finset.range_zero, Finset.sum_empty]
        omega
    | succ calls ih =>
        rcases ih with ⟨sum, below⟩ | above
        · have missed := neverSums (calls + 1)
          rw [Finset.sum_range_succ] at missed ⊢
          have started : calls = 0 ∨
              0 < ∑ call ∈ Finset.range calls, (accepts call : ℕ) := by
            rcases calls.eq_zero_or_pos with zero | positive
            · exact Or.inl zero
            · right
              apply Finset.sum_pos
              · intro call _
                exact (accepts call).pos
              · simp only [Finset.nonempty_range_iff]
                omega
          simp only [acceptedBy]
          rw [sum]
          rcases started with rfl | positive
          · left
            simp only [Finset.range_zero, Finset.sum_empty] at missed ⊢
            omega
          · by_cases within :
                ∑ call ∈ Finset.range calls, (accepts call : ℕ) + (accepts calls : ℕ) < limit
            · left
              omega
            · right
              omega
        · right
          have mono := acceptedBy_mono limit length accepts (Nat.le_add_right calls 1)
          omega
  rcases beyond calls with ⟨sum, below⟩ | above
  · omega
  · omega

/-- Exactly the schedules that hit the limit of a write. -/
theorem exists_hit_iff {length : ℕ} (positive : 0 < limit) (fits : limit ≤ length) :
    (∃ calls, acceptedBy limit length accepts calls = limit) ↔
      limit = length ∨ limit ≤ (accepts 0 : ℕ) ∨
        ∃ calls, ∑ call ∈ Finset.range calls, (accepts call : ℕ) = limit := by
  constructor
  · rintro ⟨calls, hit⟩
    by_contra missed
    simp only [not_or, not_exists, not_le] at missed
    rcases missed with ⟨notWhole, firstShort, neverSums⟩
    exact acceptedBy_ne_limit (by omega) firstShort neverSums calls hit
  · rintro (whole | atOnce | ⟨calls, sum⟩)
    · subst whole
      rcases exists_hit_of_whole accepts positive with ⟨calls, _, hit⟩
      exact ⟨calls, hit⟩
    · refine ⟨1, ?_⟩
      simp only [acceptedBy]
      omega
    · exact ⟨calls, (acceptedBy_eq_sum fits (by omega)).trans sum⟩

/-- The state in which `write` suspends: a negative limit is set by the first callback. -/
def suspended (size : ℤ) (stream : Stream) : Suspension (WriteAwaiter × Stream) :=
  Suspension.start (create size, stream)

/-- The number of bytes that `write` is asked for. -/
def requested (content : Bytes) (size : ℤ) : ℕ :=
  if size < 0 then content.length else size.toNat

theorem suspended_eq_afterWriting (content : Bytes) (socket : Socket) (limit : ℕ) :
    suspended limit { buf := content, socket := socket } =
      Suspension.start (afterWriting content socket limit 0 0) := by
  simp [suspended, afterWriting, create]

theorem fired_suspended_negative {size : ℤ} (negative : size < 0) (stream : Stream) (calls : ℕ) :
    Suspension.fired onWriteReady (calls + 1) (suspended size stream) =
      Suspension.fired onWriteReady (calls + 1) (suspended stream.buf.length stream) := by
  have nonnegative : ¬(stream.buf.length : ℤ) < 0 := by omega
  have first : (suspended size stream).fire onWriteReady =
      (suspended stream.buf.length stream).fire onWriteReady := by
    simp [suspended, Suspension.fire, Suspension.start, onWriteReady, create, negative,
      nonnegative]
  simp only [Suspension.fired, first]

theorem fired_suspended_requested (content : Bytes) (size : ℤ)
    (asked : size < 0 ∨ 0 < size ∧ size ≤ content.length) (socket : Socket) (calls : ℕ) :
    Suspension.fired onWriteReady (calls + 1)
        (suspended size { buf := content, socket := socket }) =
      Suspension.fired onWriteReady (calls + 1)
        (Suspension.start (afterWriting content socket (requested content size) 0 0)) := by
  rw [← suspended_eq_afterWriting]
  rcases asked with negative | ⟨positive, _⟩
  · rw [fired_suspended_negative negative]
    simp [requested, negative]
  · have cast : ((requested content size : ℕ) : ℤ) = size := by
      simp only [requested]
      split <;> omega
    rw [cast]

/-- The coroutine is resumed by one callback and no other, without an error, when exactly the
requested bytes have been sent and the others are still in the buffer. -/
def WritesExactly (content : Bytes) (size : ℤ) (socket : Socket) : Prop :=
  ∃ calls,
    (∀ turns, (Suspension.fired onWriteReady turns
        (suspended size { buf := content, socket := socket })).resumptions =
      if turns < calls then 0 else 1) ∧
    (Suspension.fired onWriteReady calls
      (suspended size { buf := content, socket := socket })).armed = false ∧
    (Suspension.fired onWriteReady calls
      (suspended size { buf := content, socket := socket })).state.1.awaitResume = .ok () ∧
    (Suspension.fired onWriteReady calls
      (suspended size { buf := content, socket := socket })).state.2.socket.sent =
        socket.sent ++ content.take (requested content size) ∧
    (Suspension.fired onWriteReady calls
      (suspended size { buf := content, socket := socket })).state.2.buf =
        content.drop (requested content size)

theorem writesExactly_of_hit {content : Bytes} {size : ℤ}
    (asked : size < 0 ∨ 0 < size ∧ size ≤ content.length)
    (ready : ∀ call, socket.writes (socket.writeCalls + call) = .ready (accepts call))
    (positive : 0 < requested content size) (fits : requested content size ≤ content.length)
    (hit : ∃ calls,
      acceptedBy (requested content size) content.length accepts calls = requested content size) :
    WritesExactly content size socket := by
  rcases exists_first_hit positive hit with ⟨calls, hit, notHit⟩
  have resumed := fired_of_hit ready positive fits notHit hit
  have final := fired_suspended_requested content size asked socket calls
  rw [resumed] at final
  refine ⟨calls + 1, ?_, by rw [final], by rw [final]; rfl, by rw [final]; rfl,
    by rw [final]; rfl⟩
  intro turns
  by_cases before : turns < calls + 1
  · rw [if_pos before]
    cases turns with
    | zero => rfl
    | succ turns =>
        rw [fired_suspended_requested content size asked,
          (fired_before_hit ready positive fits notHit hit (by omega)).2]
        rfl
  · rw [if_neg before]
    rw [Suspension.fired_eq_of_le (show calls + 1 ≤ turns by omega) (by rw [final]), final]

theorem hit_of_writesExactly {content : Bytes} {size : ℤ}
    (asked : size < 0 ∨ 0 < size ∧ size ≤ content.length)
    (ready : ∀ call, socket.writes (socket.writeCalls + call) = .ready (accepts call))
    (positive : 0 < requested content size) (exact : WritesExactly content size socket) :
    ∃ calls,
      acceptedBy (requested content size) content.length accepts calls =
        requested content size := by
  rcases exact with ⟨calls, resumptions, _, returned, _, _⟩
  have once := resumptions calls
  rw [if_neg (by omega)] at once
  cases calls with
  | zero => simp [Suspension.fired, suspended, Suspension.start] at once
  | succ calls =>
      rw [fired_suspended_requested content size asked] at once returned
      by_contra missed
      rw [not_exists] at missed
      rcases fired_of_not_hit ready positive (calls + 1)
        (fun call _ => missed call) with writing | ⟨_, failed⟩
      · rw [writing] at once
        simp [Suspension.start] at once
      · simp [awaitResume, failed] at returned

/-- A socket that has received nothing and accepts what a schedule says. -/
def accepting (accepts : ℕ → ℕ+) : Socket where
  incoming := []
  readCalls := 0
  reads := fun _ => .failed
  sent := []
  writeCalls := 0
  writes := fun call => .ready (accepts call)

/-- A write transfers exactly the requested bytes if and only if it asks for the whole buffer,
the first callback sends everything asked for, or the counts that the socket accepts add up to
the requested one. -/
theorem writesExactly_iff (content : Bytes) (size : ℤ) (accepts : ℕ → ℕ+)
    (nonempty : content ≠ []) (asked : size < 0 ∨ 0 < size ∧ size ≤ content.length) :
    WritesExactly content size (accepting accepts) ↔
      size < 0 ∨ size = content.length ∨ size ≤ (accepts 0 : ℕ) ∨
        ∃ calls, (∑ call ∈ Finset.range calls, (accepts call : ℕ) : ℕ) = size := by
  have length_pos : 0 < content.length := List.length_pos_of_ne_nil nonempty
  have positive : 0 < requested content size := by
    simp only [requested]
    split <;> omega
  have fits : requested content size ≤ content.length := by
    simp only [requested]
    split <;> omega
  have ready : ∀ call, (accepting accepts).writes ((accepting accepts).writeCalls + call) =
      .ready (accepts call) := by
    intro call
    simp [accepting]
  have operational : WritesExactly content size (accepting accepts) ↔ ∃ calls,
      acceptedBy (requested content size) content.length accepts calls =
        requested content size :=
    ⟨hit_of_writesExactly asked ready positive, writesExactly_of_hit asked ready positive fits⟩
  rw [operational, exists_hit_iff positive fits]
  by_cases negative : size < 0
  · simp [negative, requested]
  · have cast : ((requested content size : ℕ) : ℤ) = size := by
      simp only [requested]
      split <;> omega
    simp only [negative, false_or]
    rw [← cast]
    norm_cast

theorem writesExactly_whole_buffer : WritesExactly [1, 2, 3] (-1) (accepting fun _ => 1) :=
  (writesExactly_iff [1, 2, 3] (-1) (fun _ => 1) (by simp) (by simp)).mpr (Or.inl (by simp))

/-- A socket that accepts one byte, and then two bytes at every call. -/
def oneThenTwo (call : ℕ) : ℕ+ :=
  if call = 0 then 1 else 2

/-- Two of three bytes are asked for, and all three are written. -/
theorem not_writesExactly_two_of_three :
    ¬WritesExactly [1, 2, 3] 2 (accepting oneThenTwo) := by
  intro exact
  have ready : ∀ call, (accepting oneThenTwo).writes ((accepting oneThenTwo).writeCalls + call) =
      .ready (oneThenTwo call) := by
    intro call
    simp [accepting]
  rcases hit_of_writesExactly (by simp) ready (by decide) exact with ⟨calls, hit⟩
  have asked : requested [1, 2, 3] 2 = 2 := rfl
  rw [asked] at hit
  by_cases early : calls < 2
  · interval_cases calls <;> simp [acceptedBy, oneThenTwo] at hit
  · have overrun : acceptedBy 2 ([1, 2, 3] : Bytes).length oneThenTwo 2 = 3 := by decide
    have later := acceptedBy_mono 2 ([1, 2, 3] : Bytes).length oneThenTwo (not_lt.mp early)
    omega

end WriteAwaiter

namespace ReadExactlyAwaiter

variable {stream : Stream} {limit : ℕ}

theorem awaitReady_create {size : ℕ} (positive : 0 < size) :
    (create size).awaitReady = false := by
  simp [awaitReady, create, positive.ne']

/-- The awaiter after some calls have read some bytes. -/
def afterReading (stream : Stream) (limit calls count : ℕ) : ReadExactlyAwaiter × Stream :=
  ({ limit := limit, bytesRead := count, err := false, eof := false },
    { buf := stream.buf ++ stream.socket.incoming.take count
      socket :=
        { stream.socket with
          incoming := stream.socket.incoming.drop count
          readCalls := stream.socket.readCalls + calls } })

theorem toInt32_sizeSub {count : ℕ} (small : limit < 2 ^ 31) (le : count ≤ limit) :
    toInt32 (sizeSub limit count) = (limit - count : ℕ) := by
  have difference : sizeSub limit count = limit - count := by
    simp only [sizeSub]
    omega
  rw [difference]
  simp only [toInt32]
  split <;> omega

theorem fire_afterReading {atMost : ℕ+} {calls count : ℕ}
    (ready : stream.socket.reads (stream.socket.readCalls + calls) = .ready atMost)
    (small : limit < 2 ^ 31) (wanted : count < limit)
    (remaining : count < stream.socket.incoming.length) :
    ∃ more, 0 < more ∧ count + more ≤ limit ∧ count + more ≤ stream.socket.incoming.length ∧
      (Suspension.start (afterReading stream limit calls count)).fire onReadReady =
        { state := afterReading stream limit (calls + 1) (count + more)
          armed := count + more ≠ limit
          resumptions := if count + more = limit then 1 else 0 } := by
  have progress := atMost.pos
  refine ⟨min (atMost : ℕ) (min (limit - count) (stream.socket.incoming.length - count)),
    by omega, by omega, by omega, ?_⟩
  have howmuch := toInt32_sizeSub small wanted.le
  have nonnegative : ¬((limit - count : ℕ) : ℤ) < 0 := by omega
  have nonzero :
      min (atMost : ℕ) (min (limit - count) (stream.socket.incoming.length - count)) ≠ 0 := by
    omega
  have read : (afterReading stream limit calls count).2.evbufferRead (limit - count : ℕ) =
      (some (min (atMost : ℕ) (min (limit - count) (stream.socket.incoming.length - count))),
        (afterReading stream limit (calls + 1) (count +
          min (atMost : ℕ) (min (limit - count) (stream.socket.incoming.length - count)))).2) := by
    simp only [Stream.evbufferRead, afterReading, ready, nonnegative, if_false,
      Int.toNat_natCast, List.length_drop, List.drop_drop, Prod.mk.injEq, true_and]
    rw [List.append_assoc, ← List.take_add, Nat.add_assoc]
  generalize min (atMost : ℕ) (min (limit - count) (stream.socket.incoming.length - count)) =
    more at nonzero read ⊢
  simp only [afterReading] at read ⊢
  simp only [Suspension.fire, Suspension.start, onReadReady, howmuch, read, nonzero, if_false]
  by_cases complete : count + more = limit
  · simp [complete]
  · simp [complete]

theorem fire_afterReading_eof {atMost : ℕ+} {calls count : ℕ}
    (ready : stream.socket.reads (stream.socket.readCalls + calls) = .ready atMost)
    (small : limit < 2 ^ 31) (wanted : count < limit)
    (exhausted : stream.socket.incoming.length = count) :
    (Suspension.start (afterReading stream limit calls count)).fire onReadReady =
      { state :=
          ({ limit := limit, bytesRead := count, err := false, eof := true },
            (afterReading stream limit (calls + 1) count).2)
        armed := false
        resumptions := 1 } := by
  have howmuch := toInt32_sizeSub small wanted.le
  have nonnegative : ¬((limit - count : ℕ) : ℤ) < 0 := by omega
  subst exhausted
  simp only [Suspension.fire, Suspension.start, onReadReady, afterReading, howmuch,
    Stream.evbufferRead, ready, nonnegative, if_false]
  simp [Nat.add_assoc]

/-- Enough turns of the event loop read up to the limit, or up to the end of the stream. -/
theorem fired_afterReading {accepts : ℕ → ℕ+}
    (ready : ∀ call, stream.socket.reads (stream.socket.readCalls + call) = .ready (accepts call))
    (small : limit < 2 ^ 31) (turns calls count : ℕ) (wanted : count < limit)
    (read : count ≤ stream.socket.incoming.length)
    (enough : stream.socket.incoming.length - count < turns) :
    ∃ calls', Suspension.fired onReadReady turns
        (Suspension.start (afterReading stream limit calls count)) =
      { state :=
          ({ limit := limit
             bytesRead := min limit stream.socket.incoming.length
             err := false
             eof := stream.socket.incoming.length < limit },
            (afterReading stream limit calls'
              (min limit stream.socket.incoming.length)).2)
        armed := false
        resumptions := 1 } := by
  induction turns generalizing calls count with
  | zero => omega
  | succ turns ih =>
      simp only [Suspension.fired]
      rcases read.lt_or_eq with remaining | exhausted
      · rcases fire_afterReading (ready calls) small wanted remaining with
          ⟨more, progress, within, available, fired⟩
        rw [fired]
        by_cases complete : count + more = limit
        · refine ⟨calls + 1, ?_⟩
          have total : min limit stream.socket.incoming.length = limit := by omega
          have reached : ¬stream.socket.incoming.length < limit := by omega
          simp only [complete, total, reached]
          rw [Suspension.fired_of_disarmed (by simp)]
          simp [afterReading]
        · have later := ih (calls + 1) (count + more) (by omega) available (by omega)
          simpa [Suspension.start, complete] using later
      · refine ⟨calls + 1, ?_⟩
        have total : min limit stream.socket.incoming.length = count := by omega
        have short : stream.socket.incoming.length < limit := by omega
        rw [fire_afterReading_eof (ready calls) small wanted exhausted.symm]
        rw [Suspension.fired_of_disarmed (by rfl)]
        simp [total, short]

end ReadExactlyAwaiter

/-- No system call on the socket fails. -/
def Socket.Healthy (socket : Socket) : Prop :=
  ∀ call, socket.reads call ≠ .failed ∧ socket.writes call ≠ .failed

/-- A socket of which every system call transfers one byte. -/
def Socket.bytewise (incoming : Bytes) : Socket where
  incoming := incoming
  readCalls := 0
  reads := fun _ => .ready 1
  sent := []
  writeCalls := 0
  writes := fun _ => .ready 1

theorem Socket.healthy_bytewise (incoming : Bytes) : (bytewise incoming).Healthy := by
  intro call
  simp [bytewise]

/-- The contents of a stream whose socket does not fail. -/
structure Stream.Holds (stream : Stream) (buf incoming sent : Bytes) : Prop where
  buf_eq : stream.buf = buf
  incoming_eq : stream.socket.incoming = incoming
  sent_eq : stream.socket.sent = sent
  healthy : stream.socket.Healthy

theorem Readiness.exists_ready {readiness : ℕ → Readiness}
    (succeeds : ∀ call, readiness call ≠ .failed) (first : ℕ) :
    ∃ accepts : ℕ → ℕ+, ∀ call, readiness (first + call) = .ready (accepts call) := by
  have each : ∀ call, ∃ atMost : ℕ+, readiness (first + call) = .ready atMost := by
    intro call
    cases result : readiness (first + call) with
    | ready atMost => exact ⟨atMost, rfl⟩
    | failed => exact absurd result (succeeds _)
  choose accepts ready using each
  exact ⟨accepts, ready⟩

namespace Buffer

variable {stream : Stream} {buf incoming sent : Bytes}

/-- Reading takes exactly the requested bytes from the socket, however it chunks them. -/
theorem read_ok (holds : stream.Holds buf incoming sent) {size : ℕ} (small : size < 2 ^ 31)
    (available : size ≤ incoming.length) :
    ∃ after, read size stream = .ok () after ∧
      after.Holds (buf ++ incoming.take size) (incoming.drop size) sent := by
  rcases holds with ⟨rfl, rfl, rfl, healthy⟩
  rcases Readiness.exists_ready (fun call => (healthy call).1) stream.socket.readCalls with
    ⟨accepts, ready⟩
  rcases size.eq_zero_or_pos with rfl | positive
  · refine ⟨stream, by simp [read, ReadExactlyAwaiter.awaitReady, ReadExactlyAwaiter.create], ?_⟩
    exact ⟨by simp, by simp, rfl, healthy⟩
  · have notReady := ReadExactlyAwaiter.awaitReady_create positive
    rcases ReadExactlyAwaiter.fired_afterReading ready small
      (stream.socket.incoming.length + 1) 0 0 positive (Nat.zero_le _) (by omega) with
      ⟨calls, fired⟩
    have start : Suspension.start (ReadExactlyAwaiter.create size, stream) =
        Suspension.start (ReadExactlyAwaiter.afterReading stream size 0 0) := by
      simp [ReadExactlyAwaiter.afterReading, ReadExactlyAwaiter.create]
    have total : min size stream.socket.incoming.length = size := by omega
    have reached : ¬stream.socket.incoming.length < size := by omega
    refine ⟨(ReadExactlyAwaiter.afterReading stream size calls size).2, ?_, ?_⟩
    · simp only [read, notReady, start, fired, total, reached]
      simp [resumeWith, ReadExactlyAwaiter.awaitResume]
    · exact ⟨rfl, rfl, rfl, healthy⟩

/-- Reading more bytes than the peer has sent raises `end of stream`. -/
theorem read_eof (holds : stream.Holds buf incoming sent) {size : ℕ} (small : size < 2 ^ 31)
    (short : incoming.length < size) :
    ∃ after, read size stream = .error (.runtimeError "end of stream") after ∧
      after.Holds (buf ++ incoming) [] sent := by
  rcases holds with ⟨rfl, rfl, rfl, healthy⟩
  rcases Readiness.exists_ready (fun call => (healthy call).1) stream.socket.readCalls with
    ⟨accepts, ready⟩
  have notReady := ReadExactlyAwaiter.awaitReady_create (Nat.zero_lt_of_lt short)
  rcases ReadExactlyAwaiter.fired_afterReading ready small
    (stream.socket.incoming.length + 1) 0 0 (by omega) (Nat.zero_le _) (by omega) with
    ⟨calls, fired⟩
  have start : Suspension.start (ReadExactlyAwaiter.create size, stream) =
      Suspension.start (ReadExactlyAwaiter.afterReading stream size 0 0) := by
    simp [ReadExactlyAwaiter.afterReading, ReadExactlyAwaiter.create]
  have total : min size stream.socket.incoming.length = stream.socket.incoming.length := by omega
  refine ⟨(ReadExactlyAwaiter.afterReading stream size calls stream.socket.incoming.length).2,
    ?_, ?_⟩
  · simp only [read, notReady, start, fired, total, short]
    simp [resumeWith, ReadExactlyAwaiter.awaitResume]
  · exact ⟨by simp [ReadExactlyAwaiter.afterReading],
      by simp [ReadExactlyAwaiter.afterReading], rfl, healthy⟩

theorem readTo_ok (holds : stream.Holds buf incoming sent) {size : ℕ} (small : size < 2 ^ 31)
    (available : size - buf.length ≤ incoming.length) :
    ∃ after, readTo size stream = .ok () after ∧
      after.Holds (buf ++ incoming.take (size - buf.length))
        (incoming.drop (size - buf.length)) sent := by
  simp only [readTo, holds.buf_eq]
  split
  · have enough : size - buf.length = 0 := by omega
    rw [enough]
    exact read_ok holds (by omega) (by omega)
  · exact read_ok holds (by omega) available

theorem readTo_eof (holds : stream.Holds buf incoming sent) {size : ℕ} (small : size < 2 ^ 31)
    (short : incoming.length < size - buf.length) :
    ∃ after, readTo size stream = .error (.runtimeError "end of stream") after ∧
      after.Holds (buf ++ incoming) [] sent := by
  simp only [readTo, holds.buf_eq]
  split
  · omega
  · exact read_eof holds (by omega) short

/-- Reading up to a size into an empty buffer takes the next chunk of that size. -/
theorem readTo_chunk {chunk rest : Bytes} {size : ℕ}
    (holds : stream.Holds [] (chunk ++ rest) sent) (length : chunk.length = size)
    (small : size < 2 ^ 31) :
    ∃ after, readTo size stream = .ok () after ∧ after.Holds chunk rest sent := by
  subst length
  have read := readTo_ok holds small (by simp)
  simpa using read

/-- Writing the whole buffer sends it and empties it, however the socket splits it. -/
theorem write_all (stream : Stream) (writable : ∀ call, stream.socket.writes call ≠ .failed)
    (nonempty : stream.buf ≠ []) :
    ∃ calls, write (-1) stream = .ok () { buf := [], socket :=
      { stream.socket with sent := stream.socket.sent ++ stream.buf, writeCalls := calls } } := by
  rcases Readiness.exists_ready writable stream.socket.writeCalls with ⟨accepts, ready⟩
  have positive : 0 < stream.buf.length := List.length_pos_of_ne_nil nonempty
  rcases WriteAwaiter.exists_hit_of_whole accepts positive with ⟨bound, bounded, hits⟩
  rcases WriteAwaiter.exists_first_hit positive ⟨bound, hits⟩ with ⟨calls, hit, notHit⟩
  have withinFuel : calls + 1 ≤ stream.buf.length + 1 := by
    by_contra late
    exact notHit bound (by omega) hits
  have resumed := WriteAwaiter.fired_of_hit ready positive le_rfl notHit hit
  have final := WriteAwaiter.fired_suspended_requested stream.buf (-1)
    (Or.inl (by omega)) stream.socket calls
  have requested : WriteAwaiter.requested stream.buf (-1) = stream.buf.length := rfl
  rw [requested, resumed] at final
  have fired := Suspension.fired_eq_of_le withinFuel (by rw [final])
  rw [final] at fired
  refine ⟨stream.socket.writeCalls + (calls + 1), ?_⟩
  simp only [write]
  change resumeWith WriteAwaiter.awaitResume
    (Suspension.fired WriteAwaiter.onWriteReady (stream.buf.length + 1)
      (WriteAwaiter.suspended (-1) stream)) = _
  rw [fired]
  simp [resumeWith, WriteAwaiter.awaitResume, WriteAwaiter.afterWriting]

theorem write_whole (holds : stream.Holds buf incoming sent) (nonempty : buf ≠ []) :
    ∃ after, write (-1) stream = .ok () after ∧ after.Holds [] incoming (sent ++ buf) := by
  rcases holds with ⟨rfl, rfl, rfl, healthy⟩
  rcases write_all stream (fun call => (healthy call).2) nonempty with ⟨calls, wrote⟩
  exact ⟨_, wrote, rfl, rfl, rfl, healthy⟩

theorem writeSeparately_ok (holds : stream.Holds buf incoming sent) {fill : BufferM Unit}
    (nonempty : filled fill ≠ []) :
    ∃ after, writeSeparately fill stream = .ok () after ∧
      after.Holds buf incoming (sent ++ filled fill) := by
  have separate : Stream.Holds { stream with buf := filled fill } (filled fill) incoming sent :=
    ⟨rfl, holds.incoming_eq, holds.sent_eq, holds.healthy⟩
  rcases write_whole separate nonempty with ⟨written, wrote, rest⟩
  refine ⟨{ written with buf := stream.buf }, by simp only [writeSeparately, wrote], ?_⟩
  exact ⟨holds.buf_eq, rest.incoming_eq, rest.sent_eq, rest.healthy⟩

end Buffer

end EventAsync
