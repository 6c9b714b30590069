import EventAsync.MySQL.DecimalNumbers
import EventAsync.MySQL.QueryResults

/-!
# ERR packets

`parse_error_body` reads the fields behind the first byte of an ERR packet.
`expect_ok` removes this byte before it calls it, while `query_multi` has only
looked at it.  The error that a query raises therefore has a code, a state and a
message that are each off by one byte, and it is never the one that was sent.
-/

namespace EventAsync.MySQL

open ByteCodec Decoding ProtocolBuffer Client

/-- An ERR packet. -/
structure ErrPacket where
  code : ℕ
  sqlstate : Bytes
  message : Bytes
  codeFits : code < 2 ^ 16
  sqlstateLength : sqlstate.length = 5
  fits : message.length < 2 ^ 24 - 10

/-- The text of the error that `parse_error_body` raises. -/
def errorText (code : ℕ) (sqlstate message : Bytes) : Bytes :=
  ascii "(" ++ decimal code ++ ascii "; " ++ sqlstate ++ ascii ") " ++ message

def errorOf (code : ℕ) (sqlstate message : Bytes) : Stop :=
  .raised (.runtimeError "" (errorText code sqlstate message))

namespace ErrPacket

def encode (packet : ErrPacket) : Bytes :=
  0xFF :: (leBytes 2 packet.code ++ (0x23 :: packet.sqlstate ++ packet.message))

/-- The error with the code, the state and the message of the packet. -/
def error (packet : ErrPacket) : Stop :=
  errorOf packet.code (0x23 :: packet.sqlstate) packet.message

/-- The error with what `%s` prints of them, which ends at the first NUL. -/
def printedError (packet : ErrPacket) : Stop :=
  errorOf packet.code (cStr (0x23 :: packet.sqlstate)) (cStr packet.message)

end ErrPacket

section Text

/-- No digit is a semicolon. -/
theorem ne_of_mem_decimal {number : ℕ} {byte : UInt8} (mem : byte ∈ decimal number) :
    byte ≠ 0x3B := by
  rcases List.mem_map.mp mem with ⟨char, memChar, rfl⟩
  have digit := toNat_of_mem_toDigits memChar
  intro same
  have number := congrArg UInt8.toNat same
  rw [toNat_ofNat_digit digit] at number
  have semicolon : (0x3B : UInt8).toNat = 0x3B := rfl
  omega

/-- A number ends at the semicolon behind it. -/
theorem decimal_append_inj {first second : ℕ} {rest other : Bytes}
    (same : decimal first ++ 0x3B :: rest = decimal second ++ 0x3B :: other) :
    first = second ∧ rest = other := by
  have digits : ∀ number : ℕ, ∀ byte ∈ decimal number, (byte != 0x3B) = true := by
    intro number byte mem
    exact bne_iff_ne.mpr (ne_of_mem_decimal mem)
  have taken := congrArg (List.takeWhile (· != 0x3B)) same
  rw [List.takeWhile_append_of_pos (digits first), List.takeWhile_append_of_pos (digits second)]
    at taken
  simp only [List.takeWhile_cons, bne_self_eq_false, Bool.false_eq_true, if_false,
    List.append_nil] at taken
  have numbers := congrArg digitsValue taken
  rw [digitsValue_decimal, digitsValue_decimal] at numbers
  subst numbers
  exact ⟨rfl, (List.cons.inj (List.append_cancel_left same)).2⟩

/-- Errors that are equal have the same code. -/
theorem errorOf_inj {code code' : ℕ} {sqlstate sqlstate' message message' : Bytes}
    (same : errorOf code sqlstate message = errorOf code' sqlstate' message') :
    code = code' ∧ sqlstate ++ (ascii ") " ++ message) = sqlstate' ++ (ascii ") " ++ message') := by
  injection same with same
  injection same with _ same
  have opening : ascii "(" = [0x28] := by decide
  have separator : ascii "; " = [0x3B, 0x20] := by decide
  simp only [errorText, opening, separator, List.append_assoc, List.cons_append, List.nil_append,
    List.cons.injEq, true_and] at same
  rcases decimal_append_inj same with ⟨codes, rest⟩
  exact ⟨codes, (List.cons.inj rest).2⟩

end Text

theorem parseErrorBody_raises {Result : Type} {code : ℕ} {sqlstate message : Bytes}
    (codeFits : code < 2 ^ 16) (length : sqlstate.length = 6) (fits : message.length < 2 ^ 31) :
    (parseErrorBody : BufferM Result) (leBytes 2 code ++ (sqlstate ++ message)) =
      .error (errorOf code (cStr sqlstate) (cStr message)) [] := by
  have codeRemoved := @Buffer.decodes_removeLe 2 code (by norm_num) codeFits 0 (sqlstate ++ message)
  have stateRemoved := Buffer.decodes_removeString (by rw [length]; norm_num) 0 message
  rw [length] at stateRemoved
  simp only [front] at codeRemoved stateRemoved
  rw [parseErrorBody, Buffer.removeU16l, Stateful.bind_of_ok codeRemoved,
    Stateful.bind_of_ok stateRemoved, Stateful.bind_of_ok (removeStringEof_ok fits)]
  rfl

namespace ErrPacket

variable (packet : ErrPacket)

/-- The error of a query, from the fields that start one byte too early. -/
def misreadError : Stop :=
  errorOf (0xFF + 256 * (packet.code % 256))
    (cStr (UInt8.ofNat (packet.code / 256) :: 0x23 :: packet.sqlstate.take 4))
    (cStr (packet.sqlstate.drop 4 ++ packet.message))

theorem encode_shifted : packet.encode =
    leBytes 2 (0xFF + 256 * (packet.code % 256)) ++
      ((UInt8.ofNat (packet.code / 256) :: 0x23 :: packet.sqlstate.take 4) ++
        (packet.sqlstate.drop 4 ++ packet.message)) := by
  have first : UInt8.ofNat (0xFF + 256 * (packet.code % 256)) = 0xFF := by
    apply UInt8.toNat_inj.mp
    rw [UInt8.toNat_ofNat', Nat.add_mul_mod_self_left]
    rfl
  have second : (0xFF + 256 * (packet.code % 256)) / 256 = packet.code % 256 := by omega
  have low : UInt8.ofNat (packet.code % 256) = UInt8.ofNat packet.code := by
    apply UInt8.toNat_inj.mp
    rw [UInt8.toNat_ofNat', UInt8.toNat_ofNat']
    omega
  have state : packet.sqlstate ++ packet.message =
      packet.sqlstate.take 4 ++ (packet.sqlstate.drop 4 ++ packet.message) := by
    rw [← List.append_assoc, List.take_append_drop]
  simp only [encode, leBytes, first, second, low, List.cons_append, List.nil_append, state]

theorem misreadError_ne (sqlstate message : Bytes) :
    packet.misreadError ≠ errorOf packet.code (0x23 :: sqlstate) message := by
  intro same
  rcases errorOf_inj same with ⟨codes, states⟩
  have high : packet.code / 256 = 0xFF := by
    have fits := packet.codeFits
    omega
  have marker : UInt8.ofNat (packet.code / 256) = 0xFF := by rw [high]; rfl
  rw [marker, cStr, List.takeWhile_cons_of_pos (by decide), List.cons_append, List.cons_append]
    at states
  exact absurd (List.cons.inj states).1 (by decide)

theorem parseErrorBody_shifted {Result : Type} :
    (parseErrorBody : BufferM Result) packet.encode = .error packet.misreadError [] := by
  have length : (UInt8.ofNat (packet.code / 256) :: 0x23 :: packet.sqlstate.take 4).length = 6 := by
    simp [packet.sqlstateLength]
  have messageFits : (packet.sqlstate.drop 4 ++ packet.message).length < 2 ^ 31 := by
    have fits := packet.fits
    rw [List.length_append, List.length_drop, packet.sqlstateLength]
    omega
  rw [encode_shifted]
  exact parseErrorBody_raises (by omega) length messageFits

variable {packet} {lib : Library} {session loaded : Session}

/-- A result that starts with an ERR packet ends the query with the wrong error. -/
theorem readResults_err (read : readCommand session = .ok () loaded)
    (received : loaded.buf = packet.encode) (rowsAsDicts : Bool) (fuel : ℕ) (ret : List ResultSet) :
    readResults lib rowsAsDicts (fuel + 1) ret session =
      .error packet.misreadError { loaded with buf := [] } := by
  have peeked : (liftM Buffer.copyoutU8 : SessionM UInt8) loaded = .ok 0xFF loaded := by
    rcases loaded with ⟨client, buf⟩
    cases received
    exact Stateful.zoom_of_ok (Buffer.copyoutU8_cons 0xFF _)
  rw [readResults, Stateful.bind_of_ok read, Stateful.bind_of_ok peeked, if_neg (by decide),
    if_pos rfl]
  apply Stateful.zoom_of_error
  rw [received]
  exact packet.parseErrorBody_shifted

/-- `expect_ok` raises the error of the packet. -/
theorem expectOk_err (read : readCommand session = .ok () loaded)
    (received : loaded.buf = packet.encode) :
    expectOk session = .error packet.printedError { loaded with buf := [] } := by
  have removed : (liftM Buffer.removeU8 : SessionM UInt8) loaded =
      .ok 0xFF { loaded with buf := packet.encode.drop 1 } := by
    apply Stateful.zoom_of_ok
    rw [received]
    exact Buffer.decodes_removeU8 0xFF 0 _
  have messageFits : packet.message.length < 2 ^ 31 := packet.fits.trans (by norm_num)
  have length : (0x23 :: packet.sqlstate).length = 6 := by simp [packet.sqlstateLength]
  rw [expectOk, Stateful.bind_of_ok read, Stateful.bind_of_ok removed, if_neg (by decide),
    if_pos rfl]
  exact Stateful.zoom_of_error (parseErrorBody_raises packet.codeFits length messageFits)

end ErrPacket

/-- A response in which an ERR packet follows some results, all of which announce another one. No
OK packet has further bytes, with which the ERR packet would not be read. -/
structure ErrResponse (lib : Library) where
  before : List (QueryResult lib)
  packet : ErrPacket
  more : ∀ result ∈ before, result.More
  clean : ∀ result ∈ before, result.leftover = []
  fits : ∀ result ∈ before, ∀ payload ∈ result.payloads, payload.length < 2 ^ 24 - 1

namespace ErrResponse

variable {lib : Library}

def payloads (response : ErrResponse lib) : List Bytes :=
  response.before.flatMap QueryResult.payloads ++ [response.packet.encode]

def encode (response : ErrResponse lib) : Bytes :=
  packets 1 response.payloads

end ErrResponse

section Queries

variable {lib : Library} {session : Session} {client : Client} {following : Bytes} {fuel : ℕ}

theorem ErrPacket.length_encode (packet : ErrPacket) : packet.encode.length < 2 ^ 24 := by
  have fits := packet.fits
  simp only [encode, List.length_cons, List.length_append, length_leBytes, packet.sqlstateLength]
  omega

/-- The loop over the results comes to the ERR packet and raises. -/
theorem readResults_before (packet : ErrPacket) (rowsAsDicts : Bool)
    (before : List (QueryResult lib)) (more : ∀ result ∈ before, result.More)
    (clean : ∀ result ∈ before, result.leftover = [])
    (fits : ∀ result ∈ before, ∀ payload ∈ result.payloads, payload.length < 2 ^ 24)
    (enough : (before.flatMap QueryResult.payloads).length < fuel) (ret : List ResultSet)
    (awaits : session.Awaits [] (before.flatMap QueryResult.payloads ++ [packet.encode])
      following) :
    ∃ after, readResults lib rowsAsDicts fuel ret session = .error packet.misreadError after := by
  induction before generalizing fuel ret session with
  | nil =>
      cases fuel with
      | zero => cases enough
      | succ fuel =>
          rcases readCommand_next awaits packet.length_encode with ⟨loaded, read, seq, held⟩
          exact ⟨_, ErrPacket.readResults_err read held.buf_eq rowsAsDicts fuel ret⟩
  | cons result before ih =>
      rw [List.flatMap_cons, List.length_append] at enough
      rw [List.flatMap_cons, List.append_assoc] at awaits
      cases fuel with
      | zero => cases enough
      | succ fuel =>
          have packetCount := result.length_payloads_pos
          have mem : result ∈ result :: before := List.mem_cons_self ..
          rcases readResults_step rowsAsDicts result (fits result mem)
            (by omega : result.payloads.length ≤ fuel) ret awaits with
            ⟨res, middle, _, awaitsMiddle, continues⟩
          rw [clean result mem] at awaitsMiddle
          have announced : moreResultsExist result.status.flags = true := more result mem
          rw [continues, if_pos announced]
          exact ih (fun later mem => more later (List.mem_cons_of_mem _ mem))
            (fun later mem => clean later (List.mem_cons_of_mem _ mem))
            (fun later mem => fits later (List.mem_cons_of_mem _ mem)) (by omega) _ awaitsMiddle

theorem queryMulti_err (response : ErrResponse lib)
    (receives : client.Receives (response.encode ++ following))
    (enough : response.payloads.length ≤ fuel) (sql : Bytes) (rowsAsDicts : Bool) :
    ∃ after, queryMulti lib fuel sql rowsAsDicts client =
      .error response.packet.misreadError after := by
  rcases exists_sent_query receives lib fuel sql rowsAsDicts with ⟨sent, held, _, raised⟩
  have fits : ∀ result ∈ response.before, ∀ payload ∈ result.payloads, payload.length < 2 ^ 24 :=
    fun result mem payload memPayload =>
      (response.fits result mem payload memPayload).trans (by norm_num)
  simp only [ErrResponse.payloads, List.length_append, List.length_singleton] at enough
  rcases readResults_before response.packet rowsAsDicts response.before response.more
    response.clean fits enough [] ⟨1, held⟩ with ⟨after, ends⟩
  exact ⟨after.client, raised _ _ ends⟩

theorem withBuffer_raised {Result : Type} {action : SessionM Result} {stop : Stop} {after : Session}
    (raised : action ⟨client, []⟩ = .error stop after) :
    withBuffer action client = .error stop after.client :=
  Stateful.zoom_of_error raised

theorem changeDb_err (packet : ErrPacket)
    (receives : client.Receives (packets 1 [packet.encode] ++ following)) (dbName : Bytes) :
    ∃ after, changeDb dbName client = .error packet.printedError after := by
  rcases sendCommand_ok receives initDbCommand dbName with ⟨sent, sending, held⟩
  rcases receives with ⟨connection, isOpen, _⟩
  have sentAlone : withBuffer (sendCommand initDbCommand dbName) client = .ok () sent.client :=
    Stateful.zoom_of_ok sending
  have unchanged : (⟨sent.client, []⟩ : Session) = sent := by
    rw [← held.buf_eq]
  rcases readCommand_next ⟨1, held⟩ packet.length_encode with ⟨loaded, read, seq, holds⟩
  have raised := ErrPacket.expectOk_err read holds.buf_eq
  rw [← unchanged] at raised
  have ended := withBuffer_raised raised
  refine ⟨_, Eq.trans ?_ ended⟩
  rw [changeDb, Stateful.bind_of_ok (assertConnOpen_ok isOpen), Stateful.bind_of_ok sentAlone]

/-- The error of a query is never the one that the server sent. -/
structure ErrPacket.Misreported (packet : ErrPacket) : Prop where
  /-- The packet is the first one of any result, after whatever has been read before. -/
  inLoop : ∀ lib rowsAsDicts fuel ret session loaded,
    Client.readCommand session = .ok () loaded → loaded.buf = packet.encode → ∃ stop after,
      readResults lib rowsAsDicts (fuel + 1) ret session = .error stop after ∧
        stop ≠ packet.error ∧ stop ≠ packet.printedError ∧
        expectOk session = .error packet.printedError after
  inQuery : ∀ lib (response : ErrResponse lib) following client fuel sql rowsAsDicts,
    response.packet = packet → client.Receives (response.encode ++ following) →
      response.payloads.length ≤ fuel → ∃ stop after,
        queryMulti lib fuel sql rowsAsDicts client = .error stop after ∧
          stop ≠ packet.error ∧ stop ≠ packet.printedError
  inChangeDb : ∀ following client dbName,
    client.Receives (packets 1 [packet.encode] ++ following) →
      ∃ after, changeDb dbName client = .error packet.printedError after

theorem ErrPacket.misreadError_ne_error (packet : ErrPacket) :
    packet.misreadError ≠ packet.error ∧ packet.misreadError ≠ packet.printedError := by
  refine ⟨packet.misreadError_ne _ _, ?_⟩
  rw [printedError, cStr, List.takeWhile_cons_of_pos (by decide)]
  exact packet.misreadError_ne _ _

/-- Every ERR packet that a query receives is reported with another error than `change_db` reports
for it. -/
theorem ErrPacket.misreported (packet : ErrPacket) : packet.Misreported := by
  refine ⟨?_, ?_, ?_⟩
  · intro lib rowsAsDicts fuel ret session loaded read received
    exact ⟨_, _, readResults_err read received rowsAsDicts fuel ret, packet.misreadError_ne_error.1,
      packet.misreadError_ne_error.2, expectOk_err read received⟩
  · rintro lib response following client fuel sql rowsAsDicts rfl receives enough
    rcases queryMulti_err response receives enough sql rowsAsDicts with ⟨after, raised⟩
    exact ⟨_, after, raised, response.packet.misreadError_ne_error⟩
  · intro following client dbName receives
    exact changeDb_err packet receives dbName

/-- Error 1064 with the state 42000. -/
def syntaxError : ErrPacket where
  code := 1064
  sqlstate := ascii "42000"
  message := ascii "You have an error in your SQL syntax"
  codeFits := by decide
  sqlstateLength := by decide
  fits := by decide

theorem more_nil (lib : Library) : ∀ result ∈ ([] : List (QueryResult lib)), result.More := by
  simp

def syntaxErrorResponse : ErrResponse unusedLibrary where
  before := []
  packet := syntaxError
  more := more_nil unusedLibrary
  clean := by simp
  fits := by simp

/-- The query raises an error with the code 10495 and a state that starts with 04#. -/
theorem not_reported_syntaxError :
    ∃ after,
      queryMulti unusedLibrary 2 (ascii "SELEC 1") true
          (QueryResponse.receivingClient syntaxErrorResponse.encode) =
        .error (errorOf 10495 (0x04 :: ascii "#4200")
          (ascii "0You have an error in your SQL syntax")) after ∧
      errorOf 10495 (0x04 :: ascii "#4200") (ascii "0You have an error in your SQL syntax") ≠
        syntaxError.error := by
  have receives : (QueryResponse.receivingClient syntaxErrorResponse.encode).Receives
      (syntaxErrorResponse.encode ++ []) := by
    rw [List.append_nil]
    exact QueryResponse.receives_receivingClient _
  have misread : syntaxError.misreadError =
      errorOf 10495 (0x04 :: ascii "#4200") (ascii "0You have an error in your SQL syntax") := by
    decide
  have enough : syntaxErrorResponse.payloads.length ≤ 2 := by decide
  rcases queryMulti_err syntaxErrorResponse receives enough (ascii "SELEC 1") true with
    ⟨after, raised⟩
  rw [← misread]
  exact ⟨after, raised, syntaxError.misreadError_ne_error.1⟩

end Queries

end EventAsync.MySQL
