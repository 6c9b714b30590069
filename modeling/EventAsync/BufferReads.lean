import EventAsync.BufferProgress
import EventAsync.FdAwaiters

/-!
# Reads of an exact number of bytes

`Buffer::read` passes what is still to be read, a `size_t`, to `evbuffer_read`,
whose limit is a 32-bit signed `int`.  Below 2^31 the conversion keeps the value.
From there up to 2^32 it gives a negative value, which is no limit at all, but a
call that returns an `int` cannot go beyond what was asked for either.  A
multiple of 2^32, however, becomes zero, so that the call returns zero, which
the callback takes for the end of the stream: a read of 2^32 bytes or more can
come to such a call, and then raises an `end of stream` that has not been
reached.
-/

namespace EventAsync

open ByteCodec

/-- One of the calls of `evbuffer_read` between two states of a stream failed. -/
def Stream.ReadFailed (before after : Stream) : Prop :=
  ∃ call, before.socket.readCalls ≤ call ∧ call < after.socket.readCalls ∧
    before.socket.reads call = .failed

/-- The number of bytes that `evbuffer_read` may append. -/
def Stream.allowed (howmuch : ℤ) (available : ℕ) : ℕ :=
  min (if howmuch < 0 then intMax else howmuch.toNat) available

theorem Stream.allowed_le (howmuch : ℤ) (available : ℕ) :
    allowed howmuch available ≤ available :=
  min_le_right _ _

theorem Stream.allowed_eq_zero_iff {howmuch : ℤ} {available : ℕ} :
    allowed howmuch available = 0 ↔ howmuch = 0 ∨ available = 0 := by
  simp only [allowed, intMax]
  split
  · omega
  · omega

theorem Stream.evbufferRead_ready {stream : Stream} {howmuch : ℤ} {atMost : ℕ+}
    (ready : stream.socket.reads stream.socket.readCalls = .ready atMost) {count : ℕ}
    (transferred : count = min (atMost : ℕ) (allowed howmuch stream.socket.incoming.length)) :
    stream.evbufferRead howmuch =
      (some count,
        { buf := stream.buf ++ stream.socket.incoming.take count
          socket :=
            { stream.socket with
              readCalls := stream.socket.readCalls + 1
              incoming := stream.socket.incoming.drop count } }) := by
  subst transferred
  simp only [evbufferRead, ready, allowed]

namespace ReadExactlyAwaiter

/-- How a read may end: with exactly the requested bytes, or at the end of a stream that does not
hold as many, or with a call that failed. -/
def Outcome (size : ℕ) (stream : Stream) : EStateM.Result Stop Stream Unit → Prop
  | .ok _ after =>
      ¬stream.ReadFailed after ∧ size ≤ stream.socket.incoming.length ∧
        after.buf = stream.buf ++ stream.socket.incoming.take size ∧
        after.socket.incoming = stream.socket.incoming.drop size
  | .error stop after =>
      (stop = .runtimeError "end of stream" ∧ ¬stream.ReadFailed after ∧
          stream.socket.incoming.length < size) ∨
        (stop = .runtimeError "failed to read from fd" ∧ stream.ReadFailed after)

/-- `read` resumes its coroutine at most once and ends in one of the ways above. -/
structure ReadsExactly (size : ℕ) (stream : Stream) : Prop where
  resumedOnce : ∀ turns, (Suspension.fired onReadReady turns
    (Suspension.start (create size, stream))).resumptions ≤ 1
  outcome : Outcome size stream (Buffer.read size stream)

/-- `read_to`, if it returns, has filled the buffer up to the requested size. -/
def FillsTo (size : ℕ) (stream : Stream) : Prop :=
  ∀ after, Buffer.readTo size stream = .ok () after →
    after.buf.length = max size stream.buf.length ∧ stream.buf <+: after.buf

variable {stream : Stream} {size : ℕ}

theorem onReadReady_actions (state : ReadExactlyAwaiter × Stream) :
    (onReadReady state).1 = [.eventAdd] ∨ (onReadReady state).1 = [.resume] := by
  rw [onReadReady_eq]
  exact onReadResult_actions _ _

/-- A callback that resumes the coroutine does not add the event again. -/
theorem resumptions_fire (suspension : Suspension (ReadExactlyAwaiter × Stream))
    (once : (suspension.armed = true → suspension.resumptions = 0) ∧ suspension.resumptions ≤ 1) :
    ((suspension.fire onReadReady).armed = true → (suspension.fire onReadReady).resumptions = 0) ∧
      (suspension.fire onReadReady).resumptions ≤ 1 := by
  cases armed : suspension.armed with
  | false =>
      rw [Suspension.fire_of_disarmed armed]
      exact once
  | true =>
      have notYet := once.1 armed
      rcases onReadReady_actions suspension.state with adds | resumes
      · simp [Suspension.fire, armed, adds, notYet]
      · simp [Suspension.fire, armed, resumes, notYet]

theorem resumptions_le_one (size : ℕ) (stream : Stream) (turns : ℕ) :
    (Suspension.fired onReadReady turns
      (Suspension.start (create size, stream))).resumptions ≤ 1 :=
  (Suspension.fired_preserves resumptions_fire turns
    ⟨fun _ => rfl, Nat.zero_le 1⟩).2

theorem create_eq_afterReading (size : ℕ) (stream : Stream) :
    (create size, stream) = afterReading stream size 0 0 := by
  simp [create, afterReading]

theorem fire_failed {calls count : ℕ}
    (failed : stream.socket.reads (stream.socket.readCalls + calls) = .failed) :
    (Suspension.start (afterReading stream size calls count)).fire onReadReady =
      { state :=
          ({ limit := size, bytesRead := count, err := true, eof := false },
            (afterReading stream size (calls + 1) count).2)
        armed := false
        resumptions := 1 } := by
  simp [Suspension.fire, Suspension.start, onReadReady, afterReading, Stream.evbufferRead, failed,
    Nat.add_assoc]

/-- A callback whose call may append nothing takes that for the end of the stream. -/
theorem fire_nothing {calls count : ℕ} {atMost : ℕ+}
    (ready : stream.socket.reads (stream.socket.readCalls + calls) = .ready atMost)
    (nothing : Stream.allowed (toInt32 (sizeSub size count))
      (stream.socket.incoming.length - count) = 0) :
    (Suspension.start (afterReading stream size calls count)).fire onReadReady =
      { state :=
          ({ limit := size, bytesRead := count, err := false, eof := true },
            (afterReading stream size (calls + 1) count).2)
        armed := false
        resumptions := 1 } := by
  have transferred : 0 = min (atMost : ℕ) (Stream.allowed (toInt32 (sizeSub size count))
      (afterReading stream size calls count).2.socket.incoming.length) := by
    simp [afterReading, nothing]
  have read := Stream.evbufferRead_ready ready transferred
  simp only [afterReading] at read ⊢
  simp only [Suspension.fire, Suspension.start, onReadReady, read, if_true]
  simp [Nat.add_assoc]

theorem fire_some {calls count more : ℕ} {atMost : ℕ+}
    (ready : stream.socket.reads (stream.socket.readCalls + calls) = .ready atMost)
    (transferred : more = min (atMost : ℕ) (Stream.allowed (toInt32 (sizeSub size count))
      (stream.socket.incoming.length - count)))
    (something : 0 < more) :
    (Suspension.start (afterReading stream size calls count)).fire onReadReady =
      { state := afterReading stream size (calls + 1) (count + more)
        armed := count + more ≠ size
        resumptions := if count + more = size then 1 else 0 } := by
  have read : (afterReading stream size calls count).2.evbufferRead
        (toInt32 (sizeSub size count)) =
      (some more, (afterReading stream size (calls + 1) (count + more)).2) := by
    rw [Stream.evbufferRead_ready ready (by simpa [afterReading] using transferred)]
    simp only [afterReading, List.drop_drop, List.append_assoc, ← List.take_add, Nat.add_assoc]
  simp only [afterReading] at read ⊢
  simp only [Suspension.fire, Suspension.start, onReadReady, read, something.ne', if_false]
  by_cases complete : count + more = size
  · simp [complete]
  · simp [complete]

/-- What a read ends with after a number of calls: a failed call, a call that may append nothing,
or the last of the requested bytes. -/
inductive Ending (stream : Stream) (size calls count : ℕ) :
    Suspension (ReadExactlyAwaiter × Stream) → Prop
  | failed (fails : stream.socket.reads (stream.socket.readCalls + calls) = .failed) :
      Ending stream size calls count
        { state :=
            ({ limit := size, bytesRead := count, err := true, eof := false },
              (afterReading stream size (calls + 1) count).2)
          armed := false
          resumptions := 1 }
  | nothing (ready : stream.socket.reads (stream.socket.readCalls + calls) ≠ .failed)
      (none : Stream.allowed (toInt32 (sizeSub size count))
        (stream.socket.incoming.length - count) = 0) :
      Ending stream size calls count
        { state :=
            ({ limit := size, bytesRead := count, err := false, eof := true },
              (afterReading stream size (calls + 1) count).2)
          armed := false
          resumptions := 1 }
  | complete (ready : stream.socket.reads (stream.socket.readCalls + calls) ≠ .failed)
      (fits : size ≤ stream.socket.incoming.length) :
      Ending stream size calls count
        { state := afterReading stream size (calls + 1) size
          armed := false
          resumptions := 1 }

/-- Enough turns of the event loop end a read in which no call may go beyond what was asked for,
and the calls before the last one do not fail. -/
theorem fired_ending
    (bounded : ∀ count < size, Stream.allowed (toInt32 (sizeSub size count))
      (stream.socket.incoming.length - count) ≤ size - count)
    (turns calls count : ℕ) (wanted : count < size)
    (within : count ≤ stream.socket.incoming.length)
    (enough : stream.socket.incoming.length - count < turns)
    (before : ∀ call < calls, stream.socket.reads (stream.socket.readCalls + call) ≠ .failed) :
    ∃ calls' count', count' < size ∧ count' ≤ stream.socket.incoming.length ∧
      (∀ call < calls', stream.socket.reads (stream.socket.readCalls + call) ≠ .failed) ∧
      Ending stream size calls' count' (Suspension.fired onReadReady turns
        (Suspension.start (afterReading stream size calls count))) := by
  induction turns generalizing calls count with
  | zero => omega
  | succ turns ih =>
      simp only [Suspension.fired]
      have limited := bounded count wanted
      have available := Stream.allowed_le (toInt32 (sizeSub size count))
        (stream.socket.incoming.length - count)
      cases result : stream.socket.reads (stream.socket.readCalls + calls) with
      | failed =>
          refine ⟨calls, count, wanted, within, before, ?_⟩
          rw [fire_failed result, Suspension.fired_of_disarmed (by rfl)]
          exact .failed result
      | ready atMost =>
          have succeeds : stream.socket.reads (stream.socket.readCalls + calls) ≠ .failed := by
            simp [result]
          have progress := atMost.pos
          by_cases nothing : Stream.allowed (toInt32 (sizeSub size count))
              (stream.socket.incoming.length - count) = 0
          · refine ⟨calls, count, wanted, within, before, ?_⟩
            rw [fire_nothing result nothing, Suspension.fired_of_disarmed (by rfl)]
            exact .nothing succeeds nothing
          · obtain ⟨more, transferred⟩ : ∃ more, more = min (atMost : ℕ)
                (Stream.allowed (toInt32 (sizeSub size count))
                  (stream.socket.incoming.length - count)) := ⟨_, rfl⟩
            have turned := fire_some result transferred (by omega)
            rw [turned]
            by_cases complete : count + more = size
            · refine ⟨calls, count, wanted, within, before, ?_⟩
              rw [Suspension.fired_of_disarmed (by simp [complete])]
              simp only [complete, ne_eq, not_true_eq_false, decide_false, if_true]
              exact .complete succeeds (by omega)
            · have later := ih (calls + 1) (count + more) (by omega) (by omega) (by omega) (by
                intro call earlier
                rcases Nat.lt_succ_iff_lt_or_eq.mp earlier with below | rfl
                · exact before call below
                · exact succeeds)
              simpa [Suspension.start, complete] using later

theorem sizeSub_of_le {count : ℕ} (le : count ≤ size) (sizeT : size < 2 ^ 64) :
    sizeSub size count = size - count := by
  simp only [sizeSub]
  omega

theorem toInt32_eq_zero_iff {left : ℕ} : toInt32 left = 0 ↔ left % 2 ^ 32 = 0 := by
  simp only [toInt32]
  split
  · omega
  · omega

/-- Below 2^32 no call goes beyond what it is asked for: where the limit is negative, more is asked
for than one call can return. -/
theorem allowed_le_asked {left : ℕ} (small : left < 2 ^ 32) (available : ℕ) :
    Stream.allowed (toInt32 left) available ≤ left := by
  apply (min_le_left _ _).trans
  simp only [toInt32, Nat.mod_eq_of_lt small, intMax]
  split
  · rw [if_neg (by omega), Int.toNat_natCast]
  · split
    · omega
    · omega

/-- The sizes and streams for which no call is asked for zero bytes while the stream goes on. -/
def Readable (size : ℕ) (incoming : Bytes) : Prop :=
  size < 2 ^ 32 ∨ incoming.length < size

theorem Readable.bounded (readable : Readable size stream.socket.incoming) {count : ℕ}
    (wanted : count < size) :
    Stream.allowed (toInt32 (sizeSub size count)) (stream.socket.incoming.length - count) ≤
      size - count := by
  rcases readable with small | shorter
  · rw [sizeSub_of_le wanted.le (by omega)]
    exact allowed_le_asked (by omega) _
  · have available := Stream.allowed_le (toInt32 (sizeSub size count))
      (stream.socket.incoming.length - count)
    omega

theorem Readable.ended (readable : Readable size stream.socket.incoming) {count : ℕ}
    (wanted : count < size)
    (nothing : Stream.allowed (toInt32 (sizeSub size count))
      (stream.socket.incoming.length - count) = 0) :
    stream.socket.incoming.length < size := by
  rcases readable with small | shorter
  · rw [sizeSub_of_le wanted.le (by omega), Stream.allowed_eq_zero_iff,
      toInt32_eq_zero_iff] at nothing
    omega
  · exact shorter

theorem not_readFailed (size : ℕ) {calls : ℕ} (count : ℕ)
    (before : ∀ call < calls, stream.socket.reads (stream.socket.readCalls + call) ≠ .failed) :
    ¬stream.ReadFailed (afterReading stream size calls count).2 := by
  rintro ⟨call, made, earlier, failed⟩
  have sum : stream.socket.readCalls + (call - stream.socket.readCalls) = call := by omega
  simp only [afterReading] at earlier
  exact before (call - stream.socket.readCalls) (by omega) (by rw [sum]; exact failed)

theorem Ending.outcome {calls count : ℕ} {suspension : Suspension (ReadExactlyAwaiter × Stream)}
    (ending : Ending stream size calls count suspension)
    (before : ∀ call < calls, stream.socket.reads (stream.socket.readCalls + call) ≠ .failed)
    (ended : Stream.allowed (toInt32 (sizeSub size count))
      (stream.socket.incoming.length - count) = 0 → stream.socket.incoming.length < size) :
    Outcome size stream (resumeWith awaitResume suspension) := by
  have throughout : stream.socket.reads (stream.socket.readCalls + calls) ≠ .failed →
      ∀ call < calls + 1, stream.socket.reads (stream.socket.readCalls + call) ≠ .failed := by
    intro ready call made
    rcases Nat.lt_succ_iff_lt_or_eq.mp made with below | rfl
    · exact before call below
    · exact ready
  cases ending with
  | failed fails =>
      refine Or.inr ⟨rfl, stream.socket.readCalls + calls, by omega, ?_, fails⟩
      simp only [afterReading]
      omega
  | nothing ready none =>
      exact Or.inl ⟨rfl, not_readFailed size count (throughout ready), ended none⟩
  | complete ready fits =>
      exact ⟨not_readFailed size size (throughout ready), fits, rfl, rfl⟩

theorem readsExactly_of_readable (readable : Readable size stream.socket.incoming) :
    ReadsExactly size stream where
  resumedOnce := resumptions_le_one size stream
  outcome := by
    rcases size.eq_zero_or_pos with rfl | positive
    · refine ⟨?_, Nat.zero_le _, by simp, rfl⟩
      rintro ⟨call, made, earlier, _⟩
      omega
    · rcases fired_ending (fun _ => readable.bounded) (stream.socket.incoming.length + 1) 0 0
        positive (Nat.zero_le _) (by omega) (by simp) with
        ⟨calls, count, wanted, _, before, ending⟩
      rw [← create_eq_afterReading] at ending
      rw [Buffer.read, if_neg (by simp [awaitReady_create positive])]
      exact ending.outcome before (readable.ended wanted)

theorem fillsTo (size : ℕ) (stream : Stream) : FillsTo size stream := by
  intro after returned
  have read : Buffer.read (size - stream.buf.length) stream = .ok () after := by
    simp only [Buffer.readTo] at returned
    split at returned
    · rename_i enough
      rwa [Nat.sub_eq_zero_of_le enough]
    · exact returned
  rcases Buffer.read_returned read with ⟨fits, content, _⟩
  rw [content]
  refine ⟨?_, List.prefix_append _ _⟩
  rw [List.length_append, List.length_take]
  omega

/-- A read that comes to a call that may append nothing raises `end of stream`. -/
theorem read_nothing {turns count : ℕ} {atMost : ℕ+} (positive : 0 < size)
    (reading : Suspension.fired onReadReady turns (Suspension.start (create size, stream)) =
      Suspension.start (afterReading stream size turns count))
    (early : turns ≤ stream.socket.incoming.length)
    (ready : stream.socket.reads (stream.socket.readCalls + turns) = .ready atMost)
    (nothing : Stream.allowed (toInt32 (sizeSub size count))
      (stream.socket.incoming.length - count) = 0) :
    ∃ after, Buffer.read size stream = .error (.runtimeError "end of stream") after := by
  have last := fire_nothing ready nothing
  rw [← reading, ← Suspension.fired_succ] at last
  have final := Suspension.fired_eq_of_le (Nat.succ_le_succ early) (by rw [last])
  rw [last] at final
  refine ⟨(afterReading stream size (turns + 1) count).2, ?_⟩
  rw [Buffer.read, if_neg (by simp [awaitReady_create positive]), final]
  rfl

/-- A read that takes one byte at each call comes to a call for a multiple of 2^32 bytes. -/
theorem fired_bytewise (buf : Bytes) {incoming : Bytes} (sizeT : size < 2 ^ 64)
    (wide : 2 ^ 32 ≤ size) (longer : size ≤ incoming.length) {turns : ℕ}
    (early : turns ≤ size % 2 ^ 32) :
    Suspension.fired onReadReady turns
        (Suspension.start (create size, { buf := buf, socket := .bytewise incoming })) =
      Suspension.start
        (afterReading { buf := buf, socket := .bytewise incoming } size turns turns) := by
  induction turns with
  | zero => rw [create_eq_afterReading, Suspension.fired]
  | succ turns ih =>
      have incomplete : turns + 1 ≠ size := by omega
      have something : Stream.allowed (toInt32 (sizeSub size turns))
          (incoming.length - turns) ≠ 0 := by
        rw [sizeSub_of_le (by omega) sizeT, Ne, Stream.allowed_eq_zero_iff, toInt32_eq_zero_iff]
        omega
      have turned := @fire_some { buf := buf, socket := .bytewise incoming } size turns turns 1 1
        rfl (min_eq_left (Nat.one_le_iff_ne_zero.mpr something)).symm Nat.one_pos
      rw [Suspension.fired_succ, ih (by omega), turned]
      simp [Suspension.start, incomplete]

/-- A read of at least 2^32 bytes may raise `end of stream` although the stream is long enough. -/
theorem read_wide (buf : Bytes) {incoming : Bytes} (sizeT : size < 2 ^ 64) (wide : 2 ^ 32 ≤ size)
    (longer : size ≤ incoming.length) :
    ∃ after, Buffer.read size { buf := buf, socket := .bytewise incoming } =
      .error (.runtimeError "end of stream") after := by
  have within := Nat.mod_le size (2 ^ 32)
  have reading := fired_bytewise buf sizeT wide longer le_rfl
  refine read_nothing (by omega) reading (within.trans longer) rfl ?_
  rw [sizeSub_of_le within sizeT, Stream.allowed_eq_zero_iff, toInt32_eq_zero_iff]
  left
  omega

theorem not_readsExactly_of_raised {after : Stream} (longer : size ≤ stream.socket.incoming.length)
    (raised : Buffer.read size stream = .error (.runtimeError "end of stream") after) :
    ¬ReadsExactly size stream := by
  intro reads
  have outcome := reads.outcome
  rw [raised] at outcome
  rcases outcome with ⟨_, _, shorter⟩ | ⟨other, _⟩
  · omega
  · exact absurd other (by decide)

/-- For given buffer contents, size and stream, a read meets its contract under every schedule of
the calls exactly if the size is below 2^32 or the stream ends before it. -/
theorem readsExactly_iff (buf incoming : Bytes) (sizeT : size < 2 ^ 64) :
    (∀ socket : Socket, socket.incoming = incoming →
        ReadsExactly size { buf := buf, socket := socket } ∧
          FillsTo size { buf := buf, socket := socket }) ↔
      size < 2 ^ 32 ∨ incoming.length < size := by
  constructor
  · intro reads
    by_contra unreadable
    rw [not_or, not_lt, not_lt] at unreadable
    rcases read_wide buf sizeT unreadable.1 unreadable.2 with ⟨after, raised⟩
    exact not_readsExactly_of_raised unreadable.2 raised (reads (.bytewise incoming) rfl).1
  · rintro readable socket rfl
    exact ⟨readsExactly_of_readable readable, fillsTo size _⟩

/-- Four bytes that calls for more than one transfer two at a time. -/
def pairwise : Stream where
  buf := [0x61]
  socket := { Socket.bytewise [1, 2, 3, 4] with reads := fun _ => .ready ⟨2, Nat.two_pos⟩ }

theorem readsExactly_three : ReadsExactly 3 pairwise ∧ FillsTo 3 pairwise :=
  (readsExactly_iff [0x61] [1, 2, 3, 4] (by norm_num)).mpr (Or.inl (by norm_num)) _ rfl

/-- A read of 2^32 bytes raises `end of stream` at once, whatever the stream holds. -/
theorem not_readsExactly_wide :
    ¬ReadsExactly (2 ^ 32)
      { buf := [], socket := .bytewise (List.replicate (2 ^ 32) 0) } := by
  rcases @read_wide (2 ^ 32) [] (List.replicate (2 ^ 32) 0) (by norm_num) le_rfl
    List.length_replicate.ge with ⟨after, raised⟩
  exact not_readsExactly_of_raised List.length_replicate.ge raised

end ReadExactlyAwaiter

end EventAsync
