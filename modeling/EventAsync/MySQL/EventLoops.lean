import EventAsync.MySQL.BinlogStream
import EventAsync.MySQL.LogEvents

/-!
# Loops over the events of a log

A program that reads the binlog of a server takes one event after the other from
a client and handles it.  A history is a sequence of events as a server logs
them, each admissible after those before it.  From the packets of any history
such a program handles exactly the events of the history, in their order, and it
ends when the server ends the stream.
-/

namespace EventAsync.MySQL

open ByteCodec ProtocolBuffer

/-- Each event is admissible when those before it have been logged. -/
def LogEvent.AllAdmissible : LogEvent.Tables → List LogEvent → Prop
  | _, [] => True
  | tables, event :: events =>
      event.Admissible tables ∧ AllAdmissible (event.describe tables) events

/-- An event as it is sent behind the first one. -/
structure SentEvent where
  event : LogEvent
  checksum : Bytes
  checksumFits : checksum.length = 4

def SentEvent.checksummed (sent : SentEvent) : ChecksummedEvent where
  body := sent.event.encode
  checksum := sent.checksum
  checksumFits := sent.checksumFits

/-- A binlog from the first event that is sent to the end of the stream. -/
structure History where
  first : LogEvent
  later : List SentEvent
  ending : Bytes
  admissible : LogEvent.AllAdmissible (fun _ => none) (first :: later.map SentEvent.event)
  fits : ∀ payload ∈ streamPayloads first.encode (later.map SentEvent.checksummed) ending,
    payload.length < 2 ^ 24 - 1

namespace History

def events (history : History) : List LogEvent :=
  history.first :: history.later.map SentEvent.event

def stream (history : History) : BinlogStream where
  first := history.first.encode
  later := history.later.map SentEvent.checksummed
  ending := history.ending
  fits := history.fits

end History

/-- The payloads of the packets behind that of the first event. -/
def laterPayloads (later : List SentEvent) (ending : Bytes) : List Bytes :=
  (later.map fun sent => 0x00 :: (sent.event.encode ++ sent.checksum)) ++ [0xFE :: ending]

/-- The client among the variables of a program, and what the program does with an event. -/
structure EventLoop (Program : Type) where
  client : Program → Client
  setClient : Client → Program → Program
  handle : Bytes → EStateM Stop Program Unit

namespace EventLoop

variable {Program : Type}

/-- The loop, with a bound on its iterations. -/
def run (loop : EventLoop Program) : ℕ → EStateM Stop Program Unit
  | 0 => throw .outOfFuel
  | fuel + 1 => do
      let data ← Stateful.zoom loop.client loop.setClient Client.getBinlogEvent
      loop.handle data
      run loop fuel

/-- Whenever the program knows the tables, it handles an admissible event: `logs` says what it does
with the event. -/
structure Handles (loop : EventLoop Program) (knows : LogEvent.Tables → Program → Prop)
    (logs : Program → LogEvent → Program → Prop) : Prop where
  client_set : ∀ client program, loop.client (loop.setClient client program) = client
  knows_set : ∀ tables client program, knows tables program →
    knows tables (loop.setClient client program)
  handled : ∀ tables program event, knows tables program → event.Admissible tables →
    ∃ after, loop.handle event.encode program = .ok () after ∧ logs program event after ∧
      knows (event.describe tables) after ∧ loop.client after = loop.client program

/-- The program has handled some events; its client has changed before each of them. -/
inductive Replays (loop : EventLoop Program) (logs : Program → LogEvent → Program → Prop) :
    Program → List LogEvent → Program → Prop where
  | ended (program : Program) (client : Client) :
      Replays loop logs program [] (loop.setClient client program)
  | logged {program next after : Program} {event : LogEvent} {events : List LogEvent}
      (client : Client) (handled : logs (loop.setClient client program) event next)
      (later : Replays loop logs next events after) :
      Replays loop logs program (event :: events) after

variable {loop : EventLoop Program} {knows : LogEvent.Tables → Program → Prop}
  {logs : Program → LogEvent → Program → Prop} {program : Program} {tables : LogEvent.Tables}

/-- An iteration that gets an admissible event. -/
theorem Handles.run_succ (handles : loop.Handles knows logs) (knowing : knows tables program)
    {event : LogEvent} (admissible : event.Admissible tables) {client : Client}
    (returned : Client.getBinlogEvent (loop.client program) = .ok event.encode client) :
    ∃ next, logs (loop.setClient client program) event next ∧
      knows (event.describe tables) next ∧ loop.client next = client ∧
      ∀ fuel, loop.run (fuel + 1) program = loop.run fuel next := by
  have knowingSet := handles.knows_set tables client program knowing
  rcases handles.handled tables _ event knowingSet admissible with
    ⟨next, handled, logged, knowingNext, sameClient⟩
  refine ⟨next, logged, knowingNext, sameClient.trans (handles.client_set client program), ?_⟩
  intro fuel
  apply (Stateful.bind_of_ok (Stateful.zoom_of_ok returned)).trans
  exact Stateful.bind_of_ok handled

theorem Handles.run_later (handles : loop.Handles knows logs) (later : List SentEvent)
    {seq : UInt8} {ending following : Bytes} {fuel : ℕ} (knowing : knows tables program)
    (admissible : LogEvent.AllAdmissible tables (later.map SentEvent.event))
    (fits : ∀ payload ∈ laterPayloads later ending, payload.length < 2 ^ 24)
    (reading : (loop.client program).Reading .readingEvent seq
      (packets seq (laterPayloads later ending) ++ following))
    (enough : later.length < fuel) :
    ∃ after, loop.run fuel program = .error endOfStream after ∧
      (loop.client after).Receives following ∧
      loop.Replays logs program (later.map SentEvent.event) after := by
  rcases Nat.exists_eq_add_of_lt enough with ⟨more, rfl⟩
  induction later generalizing program tables seq with
  | nil =>
      simp only [laterPayloads, List.map_nil, List.nil_append, packets, List.append_nil] at reading
      rcases Client.getBinlogEvent_end reading (by decide) (fits _ (by simp [laterPayloads])) with
        ⟨ended, raised, readingEnded⟩
      refine ⟨loop.setClient ended program, ?_, ?_, .ended program ended⟩
      · exact Stateful.bind_of_error (Stateful.zoom_of_error raised)
      · rw [handles.client_set]
        exact readingEnded.receives
  | cons sent later ih =>
      simp only [laterPayloads, List.map_cons, List.cons_append, packets, List.append_assoc]
        at reading
      rcases Client.getBinlogEvent_event reading (by decide) (fits _ (by simp [laterPayloads]))
        (Client.withoutChecksum_event sent.checksummed) with ⟨client, returned, readingAfter⟩
      rcases handles.run_succ knowing admissible.1 returned with
        ⟨next, logged, knowingNext, sameClient, iterates⟩
      rw [← sameClient] at readingAfter
      rcases ih knowingNext admissible.2
        (fun payload mem => fits payload (List.mem_cons_of_mem _ mem)) readingAfter (by omega) with
        ⟨after, ends, receives, replays⟩
      refine ⟨after, ?_, receives, .logged client logged replays⟩
      have oneMore : (sent :: later).length + more + 1 = later.length + more + 1 + 1 := by
        simp only [List.length_cons]
        omega
      rw [oneMore, iterates, ends]

/-- From the packets of a history the loop handles the events of the history, and the end of the
stream ends it. -/
theorem Handles.run_history (handles : loop.Handles knows logs) (history : History)
    {following : Bytes} {fuel : ℕ} (knowing : knows (fun _ => none) program)
    (nextSeq : (loop.client program).nextSeq = 1)
    (state : (loop.client program).binlogReadState = .readingFirstEvent)
    (receives : (loop.client program).Receives (history.stream.encode ++ following))
    (enough : history.later.length + 1 < fuel) :
    ∃ after, loop.run fuel program = .error endOfStream after ∧
      (loop.client after).Receives following ∧ loop.Replays logs program history.events after := by
  have small : ∀ payload ∈ streamPayloads history.stream.first history.stream.later
      history.stream.ending, payload.length < 2 ^ 24 := by
    intro payload mem
    have fits := history.stream.fits payload mem
    omega
  have payloads : streamPayloads history.stream.first history.stream.later history.stream.ending =
      (0x00 :: history.first.encode) :: laterPayloads history.later history.ending := by
    simp [streamPayloads, laterPayloads, History.stream, SentEvent.checksummed, Function.comp_def]
  rw [payloads] at small
  have reading : (loop.client program).Reading .readingFirstEvent 1
      (packet 1 (0x00 :: history.first.encode) ++
        (packets 2 (laterPayloads history.later history.ending) ++ following)) := by
    refine ⟨?_, nextSeq, state⟩
    rw [BinlogStream.encode, payloads, packets, List.append_assoc] at receives
    exact receives
  rcases Client.getBinlogEvent_event reading (by decide) (small _ (by simp)) rfl with
    ⟨client, returned, readingAfter⟩
  rcases handles.run_succ knowing history.admissible.1 returned with
    ⟨next, logged, knowingNext, sameClient, iterates⟩
  rw [← sameClient] at readingAfter
  rcases Nat.exists_eq_add_of_lt enough with ⟨more, rfl⟩
  rcases handles.run_later history.later knowingNext history.admissible.2
    (fun payload mem => small payload (List.mem_cons_of_mem _ mem)) readingAfter
    (by omega : history.later.length < history.later.length + 1 + more) with
    ⟨after, ends, receivesAfter, replays⟩
  refine ⟨after, ?_, receivesAfter, .logged client logged replays⟩
  rw [iterates, ends]

end EventLoop

end EventAsync.MySQL
