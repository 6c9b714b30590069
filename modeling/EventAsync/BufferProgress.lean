import EventAsync.BufferDecoding

/-!
# Transfers over sockets that may fail

Whatever the system calls on a socket return, reading takes bytes from the
front of what the peer has sent and sends nothing, writing takes none, and a
read that returns has taken exactly as many bytes as were requested.
-/

namespace EventAsync

open ByteCodec

namespace Stream

/-- Between two states of a stream only bytes at the front of what the peer sent were taken. -/
def Advances (before after : Stream) : Prop :=
  after.socket.incoming <:+ before.socket.incoming

/-- Between two states of a stream nothing was sent. -/
def SendsNothing (before after : Stream) : Prop :=
  after.socket.sent = before.socket.sent

theorem SendsNothing.refl (stream : Stream) : stream.SendsNothing stream := rfl

theorem SendsNothing.trans {first second third : Stream} (earlier : first.SendsNothing second)
    (later : second.SendsNothing third) : first.SendsNothing third :=
  Eq.trans later earlier

variable {stream after : Stream} {howmuch : ℤ}

theorem evbufferRead_failed (failed : stream.evbufferRead howmuch = (none, after)) :
    after.buf = stream.buf ∧ after.socket.incoming = stream.socket.incoming := by
  simp only [evbufferRead] at failed
  split at failed
  · cases failed
    exact ⟨rfl, rfl⟩
  · cases failed

theorem evbufferRead_count {count : ℕ} (read : stream.evbufferRead howmuch = (some count, after)) :
    count ≤ stream.socket.incoming.length ∧
      after.buf = stream.buf ++ stream.socket.incoming.take count ∧
      after.socket.incoming = stream.socket.incoming.drop count := by
  simp only [evbufferRead] at read
  split at read
  · cases read
  · cases read
    exact ⟨(min_le_right _ _).trans (min_le_right _ _), rfl, rfl⟩

theorem evbufferWriteAtmost_incoming (stream : Stream) (howmuch : ℤ) :
    (stream.evbufferWriteAtmost howmuch).2.socket.incoming = stream.socket.incoming := by
  simp only [evbufferWriteAtmost]
  generalize (if howmuch < 0 ∨ (stream.buf.length : ℤ) < howmuch then stream.buf.length else
    howmuch.toNat) = limit
  split
  · rfl
  · split
    · rfl
    · rfl

end Stream

namespace ReadExactlyAwaiter

/-- What holds of a read at every turn of the event loop. -/
structure Reads (stream : Stream) (limit : ℕ)
    (suspension : Suspension (ReadExactlyAwaiter × Stream)) : Prop where
  limit_eq : suspension.state.1.limit = limit
  within : suspension.state.1.bytesRead ≤ stream.socket.incoming.length
  buf_eq : suspension.state.2.buf =
    stream.buf ++ stream.socket.incoming.take suspension.state.1.bytesRead
  incoming_eq : suspension.state.2.socket.incoming =
    stream.socket.incoming.drop suspension.state.1.bytesRead
  pending : suspension.armed = true → suspension.resumptions = 0
  resumed : suspension.resumptions ≠ 0 → suspension.state.1.err = true ∨
    suspension.state.1.eof = true ∨ suspension.state.1.bytesRead = limit

variable {stream : Stream} {limit : ℕ}

theorem Reads.fire (suspension : Suspension (ReadExactlyAwaiter × Stream))
    (reads : Reads stream limit suspension) :
    Reads stream limit (suspension.fire onReadReady) := by
  cases armed : suspension.armed with
  | false =>
      rw [Suspension.fire_of_disarmed armed]
      exact reads
  | true =>
      have notResumed := reads.pending armed
      simp only [Suspension.fire, armed, if_true, onReadReady]
      generalize toInt32 (sizeSub suspension.state.1.limit suspension.state.1.bytesRead) = howmuch
      cases result : suspension.state.2.evbufferRead howmuch with
      | mk count after =>
          cases count with
          | none =>
              have unchanged := Stream.evbufferRead_failed result
              refine ⟨reads.limit_eq, reads.within, ?_, ?_, by simp, by simp⟩
              · exact unchanged.1.trans reads.buf_eq
              · exact unchanged.2.trans reads.incoming_eq
          | some count =>
              rcases Stream.evbufferRead_count result with ⟨available, buf, incoming⟩
              rw [reads.incoming_eq, List.length_drop] at available
              rw [reads.buf_eq, reads.incoming_eq, List.append_assoc, ← List.take_add] at buf
              rw [reads.incoming_eq, List.drop_drop] at incoming
              have total :
                  suspension.state.1.bytesRead + count ≤ stream.socket.incoming.length := by
                have within := reads.within
                omega
              dsimp only
              split
              · exact ⟨reads.limit_eq, total, buf, incoming, by simp, by simp⟩
              · split
                · exact ⟨reads.limit_eq, total, buf, incoming, by simp [notResumed],
                    by simp [notResumed]⟩
                · rename_i complete
                  have reached : suspension.state.1.bytesRead + count = limit :=
                    (not_not.mp complete).trans reads.limit_eq
                  exact ⟨reads.limit_eq, total, buf, incoming, by simp,
                    fun _ => .inr (.inr reached)⟩

theorem reads_fired (stream : Stream) (limit turns : ℕ) :
    Reads stream limit (Suspension.fired onReadReady turns
      (Suspension.start (create limit, stream))) := by
  apply Suspension.fired_preserves Reads.fire turns
  exact ⟨rfl, Nat.zero_le _, (List.append_nil _).symm, rfl, fun _ => rfl, fun resumed =>
    absurd rfl resumed⟩

end ReadExactlyAwaiter

namespace Buffer

variable {stream after : Stream}

/-- A relation that ignores the buffer is respected by what is done with the buffer alone. -/
theorem lift_respects {relation : Stream → Stream → Prop} {Result : Type}
    (ignored : ∀ (stream : Stream) (buf : Bytes), relation stream { stream with buf := buf })
    (action : BufferM Result) :
    Stateful.Respects relation (fun _ => True) (liftM action : StreamM Result) := by
  apply Stateful.Respects.zoom
  intro buf stream
  exact ignored stream buf

theorem endState_resumeWith {Awaiter : Type} (awaitResume : Awaiter → Except Stop Unit)
    (suspension : Suspension (Awaiter × Stream)) :
    Stateful.endState (resumeWith awaitResume suspension) = suspension.state.2 := by
  simp only [resumeWith]
  split
  · rfl
  · split
    · rfl
    · rfl

theorem read_advances (size : ℕ) :
    Stateful.Respects Stream.Advances (fun _ => True) (read size) := by
  apply Stateful.Respects.of_endState
  intro stream
  simp only [read]
  split
  · exact List.suffix_rfl
  · have reads := ReadExactlyAwaiter.reads_fired stream size (stream.socket.incoming.length + 1)
    rw [endState_resumeWith, Stream.Advances, reads.incoming_eq]
    exact List.drop_suffix _ _

/-- A read that returns has taken the requested bytes. -/
theorem read_returned {size : ℕ} (returned : read size stream = .ok () after) :
    size ≤ stream.socket.incoming.length ∧
      after.buf = stream.buf ++ stream.socket.incoming.take size ∧
      after.socket.incoming = stream.socket.incoming.drop size := by
  simp only [read] at returned
  split at returned
  · rename_i nothing
    have zero : size = 0 := by
      simpa [ReadExactlyAwaiter.awaitReady, ReadExactlyAwaiter.create] using nothing
    cases returned
    simp [zero]
  · have reads := ReadExactlyAwaiter.reads_fired stream size (stream.socket.incoming.length + 1)
    generalize Suspension.fired ReadExactlyAwaiter.onReadReady
      (stream.socket.incoming.length + 1)
      (Suspension.start (ReadExactlyAwaiter.create size, stream)) = suspension at reads returned
    simp only [resumeWith] at returned
    split at returned
    · cases returned
    · rename_i resumed
      simp only [ReadExactlyAwaiter.awaitResume] at returned
      cases err : suspension.state.1.err with
      | true => simp [err] at returned
      | false =>
          cases eof : suspension.state.1.eof with
          | true => simp [err, eof] at returned
          | false =>
              simp only [err, eof] at returned
              cases returned
              have complete : suspension.state.1.bytesRead = size := by
                rcases reads.resumed resumed with failed | ended | complete
                · rw [err] at failed
                  cases failed
                · rw [eof] at ended
                  cases ended
                · exact complete
              rw [← complete]
              exact ⟨reads.within, reads.buf_eq, reads.incoming_eq⟩

theorem readTo_advances (size : ℕ) :
    Stateful.Respects Stream.Advances (fun _ => True) (readTo size) := by
  apply Stateful.Respects.of_endState
  intro stream
  simp only [readTo]
  split
  · exact (read_advances 0).endState stream
  · exact (read_advances _).endState stream

theorem evbufferRead_sent (stream : Stream) (howmuch : ℤ) :
    (stream.evbufferRead howmuch).2.socket.sent = stream.socket.sent := by
  simp only [Stream.evbufferRead]
  split
  · rfl
  · rfl

theorem fire_sent {sent : Bytes} (suspension : Suspension (ReadExactlyAwaiter × Stream))
    (unsent : suspension.state.2.socket.sent = sent) :
    (suspension.fire ReadExactlyAwaiter.onReadReady).state.2.socket.sent = sent := by
  cases armed : suspension.armed with
  | false =>
      rw [Suspension.fire_of_disarmed armed]
      exact unsent
  | true =>
      simp only [Suspension.fire, armed, if_true, ReadExactlyAwaiter.onReadReady]
      have kept := evbufferRead_sent suspension.state.2
        (toInt32 (sizeSub suspension.state.1.limit suspension.state.1.bytesRead))
      cases result : suspension.state.2.evbufferRead
        (toInt32 (sizeSub suspension.state.1.limit suspension.state.1.bytesRead)) with
      | mk count after =>
          rw [result] at kept
          cases count with
          | none => exact kept.trans unsent
          | some count =>
              dsimp only
              split
              · exact kept.trans unsent
              · split
                · exact kept.trans unsent
                · exact kept.trans unsent

/-- Reading sends nothing. -/
theorem read_sent (size : ℕ) :
    Stateful.Respects Stream.SendsNothing (fun _ => True) (read size) := by
  apply Stateful.Respects.of_endState
  intro stream
  simp only [read]
  split
  · rfl
  · rw [endState_resumeWith]
    exact Suspension.fired_preserves fire_sent (stream.socket.incoming.length + 1) rfl

theorem readTo_sent (size : ℕ) :
    Stateful.Respects Stream.SendsNothing (fun _ => True) (readTo size) := by
  apply Stateful.Respects.of_endState
  intro stream
  simp only [readTo]
  split
  · exact (read_sent 0).endState stream
  · exact (read_sent _).endState stream

theorem fire_incoming {incoming : Bytes} (suspension : Suspension (WriteAwaiter × Stream))
    (unread : suspension.state.2.socket.incoming = incoming) :
    (suspension.fire WriteAwaiter.onWriteReady).state.2.socket.incoming = incoming := by
  cases armed : suspension.armed with
  | false =>
      rw [Suspension.fire_of_disarmed armed]
      exact unread
  | true =>
      simp only [Suspension.fire, armed, if_true, WriteAwaiter.onWriteReady]
      generalize (if suspension.state.1.limit < 0 then
        { suspension.state.1 with limit := suspension.state.2.buf.length } else
        suspension.state.1) = awaiter
      have kept := Stream.evbufferWriteAtmost_incoming suspension.state.2 awaiter.limit
      cases result : suspension.state.2.evbufferWriteAtmost awaiter.limit with
      | mk count after =>
          rw [result] at kept
          cases count with
          | none => exact kept.trans unread
          | some count =>
              dsimp only
              split
              · exact kept.trans unread
              · exact kept.trans unread

/-- Writing leaves what the peer has sent. -/
theorem write_incoming (size : ℤ) :
    Stateful.Respects (fun before after : Stream =>
      after.socket.incoming = before.socket.incoming) (fun _ => True) (write size) := by
  apply Stateful.Respects.of_endState
  intro stream
  rw [write, endState_resumeWith]
  exact Suspension.fired_preserves fire_incoming (stream.buf.length + 1) rfl

theorem writeSeparately_incoming (fill : BufferM Unit) :
    Stateful.Respects (fun before after : Stream =>
      after.socket.incoming = before.socket.incoming) (fun _ => True) (writeSeparately fill) := by
  apply Stateful.Respects.of_endState
  intro stream
  have kept := (write_incoming (-1)).endState { stream with buf := filled fill }
  simp only [writeSeparately]
  cases wrote : write (-1) { stream with buf := filled fill } with
  | ok _ after =>
      rw [wrote] at kept
      exact kept
  | error stop after =>
      rw [wrote] at kept
      exact kept

end Buffer

end EventAsync
