import EventAsync.HTTP.Request
import EventAsync.HTTP.WebsocketReassembly

/-!
# A server of files and websockets

The handler of the example server answers a request with a file, with an error,
or by changing to the websocket protocol.  `enable_websockets` looks for the
headers of a websocket request and answers with the digest of the key.  The
websocket handler then replies to every message with its rot13 encoding until
the client sends "quit".  The handler is a detached task: an exception that
leaves it, as at the end of the stream, terminates the process.
-/

namespace EventAsync.HTTP

open ByteCodec

/-- The characters of a text as bytes. -/
def ascii (text : String) : Bytes :=
  text.toList.map fun char => UInt8.ofNat char.toNat

/-- `evhttp_cmd_type`. -/
inductive RequestCommand where
  | get | post | head | put | delete | options | trace | connect | patch
  deriving DecidableEq

/-- The functions of other libraries that the server calls. A file that cannot be loaded raises an
exception with a text. -/
structure ServerLibrary where
  sha1 : Bytes → Bytes
  base64Encode : Bytes → Bytes
  rot13 : Bytes → Bytes
  loadFile : Bytes → Except Bytes Bytes

abbrev Headers := List (Bytes × Bytes)

def lowerCase (char : UInt8) : UInt8 :=
  if 0x41 ≤ char ∧ char ≤ 0x5A then char + 0x20 else char

/-- `strcasecmp` finds no difference. -/
def SameText (left right : Bytes) : Prop :=
  left.map lowerCase = right.map lowerCase

instance (left right : Bytes) : Decidable (SameText left right) :=
  inferInstanceAs (Decidable (_ = _))

/-- `evhttp_find_header`. -/
def findHeader (headers : Headers) (key : Bytes) : Option Bytes :=
  (headers.find? fun header => SameText header.1 key).map Prod.snd

/-- A request that has been received. -/
structure InboundRequest where
  command : RequestCommand
  uri : Bytes
  inputHeaders : Headers

/-- The key of a request that asks for the websocket protocol. -/
def InboundRequest.websocketKey (request : InboundRequest) : Option Bytes := do
  guard (request.command = .get)
  let connection ← findHeader request.inputHeaders (ascii "Connection")
  guard (SameText connection (ascii "upgrade"))
  let upgrade ← findHeader request.inputHeaders (ascii "Upgrade")
  guard (SameText upgrade (ascii "websocket"))
  findHeader request.inputHeaders (ascii "Sec-WebSocket-Key")

/-- The reply that changes the protocol. -/
def switchingProtocols (lib : ServerLibrary) (key : Bytes) : Bytes :=
  ascii ("HTTP/1.1 101 Switching Protocols\r\n" ++ "Upgrade: websocket\r\n" ++
      "Connection: upgrade\r\n" ++ "Sec-WebSocket-Accept: ") ++
    (lib.base64Encode (lib.sha1 (key ++ ascii "258EAFA5-E914-47DA-95CA-C5AB0DC85B11")) ++
      ascii "\r\n\r\n")

/-- `explanation_for_response_code`. -/
def explanationForResponseCode : ℕ → Option String
  | 100 => "Continue"
  | 101 => "Switching Protocols"
  | 102 => "Processing"
  | 200 => "OK"
  | 201 => "Created"
  | 202 => "Accepted"
  | 203 => "Non-Authoritative Information"
  | 204 => "No Content"
  | 205 => "Reset Content"
  | 206 => "Partial Content"
  | 207 => "Multi-Status"
  | 208 => "Already Reported"
  | 226 => "IM Used"
  | 300 => "Multiple Choices"
  | 301 => "Moved Permanently"
  | 302 => "Found"
  | 303 => "See Other"
  | 304 => "Not Modified"
  | 305 => "Use Proxy"
  | 307 => "Temporary Redirect"
  | 308 => "Permanent Redirect"
  | 400 => "Bad Request"
  | 401 => "Unathorized"
  | 402 => "Payment Required"
  | 403 => "Forbidden"
  | 404 => "Not Found"
  | 405 => "Method Not Allowed"
  | 406 => "Not Acceptable"
  | 407 => "Proxy Authentication Required"
  | 408 => "Request Timeout"
  | 409 => "Conflict"
  | 410 => "Gone"
  | 411 => "Length Required"
  | 412 => "Precondition Failed"
  | 413 => "Request Entity Too Large"
  | 414 => "Request-URI Too Long"
  | 415 => "Unsupported Media Type"
  | 416 => "Requested Range Not Satisfiable"
  | 417 => "Expectation Failed"
  | 418 => "I'm a Teapot"
  | 420 => "Enhance Your Calm"
  | 422 => "Unprocessable Entity"
  | 423 => "Locked"
  | 424 => "Failed Dependency"
  | 426 => "Upgrade Required"
  | 428 => "Precondition Required"
  | 429 => "Too Many Requests"
  | 431 => "Request Header Fields Too Large"
  | 444 => "No Response"
  | 449 => "Retry With"
  | 451 => "Unavailable For Legal Reasons"
  | 500 => "Internal Server Error"
  | 501 => "Not Implemented"
  | 502 => "Bad Gateway"
  | 503 => "Service Unavailable"
  | 504 => "Gateway Timeout"
  | 505 => "HTTP Version Not Supported"
  | 506 => "Variant Also Negotiates"
  | 507 => "Insufficient Storage"
  | 508 => "Loop Detected"
  | 509 => "Bandwidth Limit Exceeded"
  | 510 => "Not Extended"
  | 511 => "Network Authentication Required"
  | 598 => "Network Read Timeout Error"
  | 599 => "Network Connect Timeout Error"
  | _ => none

/-- What `evhttp_send_reply` is called with. -/
structure HttpReply where
  code : ℕ
  explanation : String
  outputHeaders : Headers
  body : Bytes

/-- The handling of a request: the connection, the headers of the reply, the replies that have been
sent and the files that have been loaded. -/
structure Handling where
  stream : Stream
  outputHeaders : Headers
  replies : List HttpReply
  loaded : List Bytes

abbrev HandlerM := EStateM Stop Handling

instance : MonadLift StreamM HandlerM where
  monadLift action :=
    Stateful.zoom Handling.stream (fun stream handling => { handling with stream := stream }) action

namespace Server

/-- `Request::add_output_header`. -/
def addOutputHeader (name value : Bytes) : HandlerM Unit := fun handling =>
  .ok () { handling with outputHeaders := handling.outputHeaders ++ [(name, value)] }

/-- `evhttp_send_reply`, with the explanation for the code. -/
def sendReply (code : ℕ) (body : Bytes) : HandlerM Unit := fun handling =>
  match explanationForResponseCode code with
  | some explanation =>
      .ok () { handling with
        replies := handling.replies ++ [⟨code, explanation, handling.outputHeaders, body⟩] }
  | none => .error (.raised (.outOfRange "unordered_map::at")) handling

/-- `send_response` with a body. -/
def sendResponse (serverName : Bytes) (code : ℕ) (contentType body : Bytes) : HandlerM Unit := do
  addOutputHeader (ascii "Content-Type") contentType
  if serverName ≠ [] then
    addOutputHeader (ascii "Server") serverName
  sendReply code body

/-- `enable_websockets`; whether the request has become a websocket. -/
def enableWebsockets (lib : ServerLibrary) (request : InboundRequest) : StreamM Bool :=
  match request.websocketKey with
  | none => return false
  | some key => do
      Buffer.writeSeparately (Buffer.add (switchingProtocols lib key))
      return true

/-- The websocket handler, with a bound on the messages. -/
def serveMessages (lib : ServerLibrary) : ℕ → StreamM Unit
  | 0 => throw .outOfFuel
  | fuel + 1 => do
      let msg ← WebsocketClient.read
      WebsocketClient.write (lib.rot13 msg.data) 0x01
      if msg.data = ascii "quit" then return ()
      else serveMessages lib fuel

/-- Every message takes two bytes or more, which bounds their number. -/
def serveWebsocket (lib : ServerLibrary) : StreamM Unit := fun stream =>
  serveMessages lib (stream.socket.incoming.length + 1) stream

/-- `load_file`. -/
def loadFile (lib : ServerLibrary) (filename : Bytes) : HandlerM (Except Bytes Bytes) :=
  fun handling =>
    .ok (lib.loadFile filename) { handling with loaded := handling.loaded ++ [filename] }

/-- `filename.find(text) != string::npos`. -/
def Contains (text part : Bytes) : Prop :=
  part <:+: text

instance (text part : Bytes) : Decidable (Contains text part) :=
  inferInstanceAs (Decidable (part <:+: text))

/-- The part of `handle_request` that serves files. -/
def handleStatic (lib : ServerLibrary) (serverName path : Bytes) : HandlerM Unit := do
  let filename := ascii "HTTPWebsocketServer-Static/" ++ path.drop 8
  if Contains filename (ascii "..") then
    sendResponse serverName 400 (ascii "text/plain") (ascii "Invalid static file")
  else
    match ← loadFile lib filename with
    | .error what =>
        sendResponse serverName 500 (ascii "text/plain") (ascii "Could not read file: " ++ what)
    | .ok data =>
        let contentType := if ascii ".js" <:+ filename then "text/javascript" else "text/html"
        sendResponse serverName 200 (ascii contentType) data

/-- `handle_request` of the example. -/
def handleRequest (lib : ServerLibrary) (serverName : Bytes) (request : InboundRequest) :
    HandlerM Unit := do
  let path := if request.uri = ascii "/" then ascii "/static/index.html" else request.uri
  if ascii "/static/" <+: path then handleStatic lib serverName path
  else if ascii "/stream" <+: path then do
    if ← enableWebsockets lib request then
      serveWebsocket lib
    else
      sendResponse serverName 400 (ascii "text/plain")
        (ascii "Could not enable websockets for request")
  else
    sendResponse serverName 404 (ascii "text/plain") (ascii "Incorrect path: " ++ path)

end Server

/-- The frame in which a text is sent. -/
def textFrame (data : Bytes) : Bytes :=
  0x81 :: UInt8.ofNat ((LengthForm.shortest data.length).code data.length) ::
    ((LengthForm.shortest data.length).extension data.length ++ data)

/-- How the handler replies to the frames of a client: what is sent, how it ends and the frames that
are not received. -/
inductive Conversation (rot13 : Bytes → Bytes) :
    List Frame → Bytes → Except Stop Unit → List Frame → Prop where
  | quit {message : List Frame} (rest : List Frame) (isMessage : IsMessage message)
      (isQuit : (assembled message).data = ascii "quit") :
      Conversation rot13 (message ++ rest)
        (pongs message ++ textFrame (rot13 (assembled message).data)) (.ok ()) rest
  | reply {message later rest : List Frame} {said : Bytes} {ending : Except Stop Unit}
      (isMessage : IsMessage message) (notQuit : (assembled message).data ≠ ascii "quit")
      (continued : Conversation rot13 later said ending rest) :
      Conversation rot13 (message ++ later)
        (pongs message ++ textFrame (rot13 (assembled message).data) ++ said) ending rest
  | offended {before : List Frame} {offending : Frame} (rest : List Frame)
      (pending : Pending before) (offends : Offends before offending) :
      Conversation rot13 (before ++ offending :: rest) (pongs before ++ closeEcho offending)
        (.error (offence offending)) rest
  | exhausted {frames : List Frame} (pending : Pending frames) :
      Conversation rot13 frames (pongs frames) (.error (.runtimeError "end of stream")) []

theorem IsMessage.ne_nil {message : List Frame} (isMessage : IsMessage message) :
    message ≠ [] := by
  rcases isMessage.final with ⟨before, last, rfl, _⟩
  simp

/-- The frames of a client are a conversation, whatever they are. -/
theorem exists_conversation (rot13 : Bytes → Bytes) (frames : List Frame) :
    ∃ said ending rest, Conversation rot13 frames said ending rest := by
  induction size : frames.length using Nat.strong_induction_on generalizing frames with
  | h length ih =>
      rcases exists_ending frames [] Pending.nil with
        ⟨message, later, rfl, isMessage⟩ | ⟨before, offending, rest, rfl, pending, offends⟩ |
          pending
      · by_cases isQuit : (assembled message).data = ascii "quit"
        · exact ⟨_, _, _, .quit later isMessage isQuit⟩
        · have positive := List.length_pos_iff.mpr isMessage.ne_nil
          rw [List.nil_append] at positive
          rw [List.length_append] at size
          rcases ih later.length (by omega) later rfl with ⟨said, ending, rest, continued⟩
          exact ⟨_, _, _, .reply isMessage isQuit continued⟩
      · exact ⟨_, _, _, .offended rest pending offends⟩
      · exact ⟨_, _, _, .exhausted pending⟩

/-- The frames start with messages of which the last one is "quit". -/
def Quits (frames : List Frame) : Prop :=
  ∃ (messages : List (List Frame)) (last rest : List Frame),
    frames = messages.flatten ++ (last ++ rest) ∧
    (∀ message ∈ messages, IsMessage message) ∧ IsMessage last ∧
    (assembled last).data = ascii "quit"

theorem Conversation.quits {rot13 : Bytes → Bytes} {frames rest : List Frame} {said : Bytes}
    (conversation : Conversation rot13 frames said (.ok ()) rest) : Quits frames := by
  generalize result : Except.ok () = ending at conversation
  induction conversation with
  | quit rest isMessage isQuit => exact ⟨[], _, rest, rfl, by simp, isMessage, isQuit⟩
  | @reply message later rest said ending isMessage notQuit continued ih =>
      rcases ih result with ⟨messages, last, rest, rfl, allMessages, isLast, isQuit⟩
      refine ⟨message :: messages, last, rest, ?_, ?_, isLast, isQuit⟩
      · rw [List.flatten_cons, List.append_assoc]
      · rintro other (_ | ⟨_, mem⟩)
        · exact isMessage
        · exact allMessages other mem
  | offended => cases result
  | exhausted => cases result

/-- Frames that quit have a conversation that ends without an exception. -/
theorem exists_conversation_of_quits (rot13 : Bytes → Bytes) {frames : List Frame}
    (quits : Quits frames) : ∃ said rest, Conversation rot13 frames said (.ok ()) rest := by
  rcases quits with ⟨messages, last, rest, rfl, allMessages, isLast, isQuit⟩
  induction messages with
  | nil => exact ⟨_, rest, .quit rest isLast isQuit⟩
  | cons message messages ih =>
      have isMessage := allMessages message List.mem_cons_self
      rw [List.flatten_cons, List.append_assoc]
      by_cases earlier : (assembled message).data = ascii "quit"
      · exact ⟨_, _, .quit _ isMessage earlier⟩
      · rcases ih fun other mem => allMessages other (List.mem_cons_of_mem message mem) with
          ⟨said, last, continued⟩
        exact ⟨_, last, .reply isMessage earlier continued⟩

namespace Server

open Buffer WebsocketClient

variable {stream : Stream} {sent : Bytes}

theorem write_text (data : Bytes) {buf incoming : Bytes} (holds : stream.Holds buf incoming sent) :
    ∃ after, WebsocketClient.write data 0x01 stream = .ok () after ∧
      after.Holds buf incoming (sent ++ textFrame data) := by
  have content : filled (do
      addU8 (0x80 ||| (0x01 &&& 0x0F))
      if 0xFFFF < data.length then
        addU8 0x7F
        addU64b data.length
      else if 0x7D < data.length then
        addU8 0x7E
        addU16b data.length
      else
        addU8 (UInt8.ofNat data.length)
      add data) = textFrame data := by
    have head : (0x80 ||| (0x01 &&& 0x0F) : UInt8) = 0x81 := by decide
    simp only [textFrame, LengthForm.shortest, head]
    split
    · simp [filled, addU8, addU64b, add, bind, EStateM.bind, Stateful.endState,
        LengthForm.code, LengthForm.extension]
    · split
      · simp [filled, addU8, addU16b, add, bind, EStateM.bind, Stateful.endState,
          LengthForm.code, LengthForm.extension]
      · simp [filled, addU8, add, bind, EStateM.bind, Stateful.endState,
          LengthForm.code, LengthForm.extension]
  have nonempty : textFrame data ≠ [] := by simp [textFrame]
  rw [← content] at nonempty ⊢
  exact writeSeparately_ok holds nonempty

/-- A message is read and answered. -/
theorem serveMessages_message (lib : ServerLibrary) {message : List Frame} {rest : Bytes}
    (isMessage : IsMessage message)
    (holds : stream.Holds [] (message.flatMap Frame.encode ++ rest) sent) (fuel : ℕ) :
    ∃ after : Stream, after.Holds [] rest
        (sent ++ (pongs message ++ textFrame (lib.rot13 (assembled message).data))) ∧
      serveMessages lib (fuel + 1) stream =
        (if (assembled message).data = ascii "quit" then return ()
          else serveMessages lib fuel : StreamM Unit) after := by
  rcases read_message isMessage holds with ⟨received, reads, held⟩
  rcases write_text (lib.rot13 (assembled message).data) held with ⟨after, wrote, heldAfter⟩
  rw [List.append_assoc] at heldAfter
  refine ⟨after, heldAfter, ?_⟩
  rw [serveMessages, Stateful.bind_of_ok reads, Stateful.bind_of_ok wrote]

/-- The handler follows the conversation. -/
theorem serveMessages_conversation (lib : ServerLibrary) {frames rest : List Frame} {said : Bytes}
    {ending : Except Stop Unit} (conversation : Conversation lib.rot13 frames said ending rest)
    (holds : stream.Holds [] (frames.flatMap Frame.encode) sent) (fuel : ℕ)
    (enough : frames.length < fuel) :
    ∃ after : Stream, after.Holds [] (rest.flatMap Frame.encode) (sent ++ said) ∧
      serveMessages lib fuel stream = Stateful.ended ending after := by
  rcases Nat.exists_eq_add_of_lt (Nat.zero_lt_of_lt enough) with ⟨left, rfl⟩
  induction conversation generalizing left stream sent with
  | quit rest isMessage isQuit =>
      rw [List.flatMap_append] at holds
      rcases serveMessages_message lib isMessage holds (0 + left) with ⟨after, held, turn⟩
      rw [if_pos isQuit] at turn
      exact ⟨after, held, turn⟩
  | @reply message later rest said ending isMessage notQuit continued ih =>
      rw [List.flatMap_append] at holds
      rcases serveMessages_message lib isMessage holds (0 + left) with ⟨middle, held, turn⟩
      rw [if_neg notQuit] at turn
      have positive := List.length_pos_iff.mpr isMessage.ne_nil
      rw [List.length_append] at enough
      have fewer : later.length < 0 + left := by omega
      rcases Nat.exists_eq_add_of_lt (Nat.zero_lt_of_lt fewer) with ⟨still, same⟩
      rcases ih held still (by omega) with ⟨after, heldAfter, ends⟩
      rw [← same] at ends
      rw [List.append_assoc] at heldAfter
      exact ⟨after, heldAfter, turn.trans ends⟩
  | offended rest pending offends =>
      rw [List.flatMap_append, List.flatMap_cons] at holds
      rcases read_offending pending offends holds with ⟨after, raised, held⟩
      rw [List.append_assoc] at held
      exact ⟨after, held, Stateful.bind_of_error raised⟩
  | exhausted pending =>
      rcases read_exhausted pending holds with ⟨after, raised, held⟩
      exact ⟨after, held, Stateful.bind_of_error raised⟩

theorem not_static_of_stream {uri : Bytes} (isStream : ascii "/stream" <+: uri) :
    uri ≠ ascii "/" ∧ ¬ascii "/static/" <+: uri := by
  have stream : ascii "/stream" = [0x2F, 0x73, 0x74, 0x72, 0x65, 0x61, 0x6D] := rfl
  have static : ascii "/static/" = [0x2F, 0x73, 0x74, 0x61, 0x74, 0x69, 0x63, 0x2F] := rfl
  have root : ascii "/" = [0x2F] := rfl
  rcases isStream with ⟨tail, rfl⟩
  rw [stream, static, root]
  constructor
  · simp
  · simp [List.cons_prefix_cons]

/-- The reply that changes the protocol is sent before anything is read. -/
theorem enableWebsockets_ok (lib : ServerLibrary) {request : InboundRequest} {key incoming : Bytes}
    (isKey : request.websocketKey = some key) (holds : stream.Holds [] incoming sent) :
    ∃ after : Stream, after.Holds [] incoming (sent ++ switchingProtocols lib key) ∧
      enableWebsockets lib request stream = .ok true after := by
  have content : filled (Buffer.add (switchingProtocols lib key)) = switchingProtocols lib key :=
    rfl
  have nonempty : switchingProtocols lib key ≠ [] := by
    apply List.append_ne_nil_of_left_ne_nil
    decide
  rw [← content] at nonempty
  rcases writeSeparately_ok holds nonempty with ⟨after, wrote, held⟩
  refine ⟨after, held, ?_⟩
  rw [enableWebsockets, isKey]
  exact Stateful.bind_of_ok wrote

/-- A client that opens a websocket has the conversation that its frames make, whatever they are.
The handler returns if the frames quit; otherwise it ends with an exception. -/
theorem handleRequest_session (lib : ServerLibrary) (serverName : Bytes) {request : InboundRequest}
    {key : Bytes} (isStream : ascii "/stream" <+: request.uri)
    (isKey : request.websocketKey = some key) (frames : List Frame)
    (holds : stream.Holds [] (frames.flatMap Frame.encode) sent) :
    ∃ said ending rest, ∃ after : Stream, Conversation lib.rot13 frames said ending rest ∧
      handleRequest lib serverName request ⟨stream, [], [], []⟩ =
        Stateful.ended ending ⟨after, [], [], []⟩ ∧
      after.Holds [] (rest.flatMap Frame.encode)
        (sent ++ switchingProtocols lib key ++ said) ∧
      (ending = .ok () ↔ Quits frames) := by
  rcases exists_conversation lib.rot13 frames with ⟨said, ending, rest, conversation⟩
  rcases enableWebsockets_ok lib isKey holds with ⟨opened, heldOpened, enabled⟩
  have enough : frames.length < opened.socket.incoming.length + 1 := by
    rw [heldOpened.incoming_eq]
    have fits := length_le_length_encode frames
    omega
  rcases serveMessages_conversation lib conversation heldOpened _ enough with
    ⟨after, held, served⟩
  refine ⟨said, ending, rest, after, conversation, ?_, held, ?_⟩
  · have opens : (liftM (enableWebsockets lib request) : HandlerM Bool) ⟨stream, [], [], []⟩ =
        .ok true ⟨opened, [], [], []⟩ := Stateful.zoom_of_ok enabled
    have serves : (liftM (serveWebsocket lib) : HandlerM Unit) ⟨opened, [], [], []⟩ =
        Stateful.ended ending ⟨after, [], [], []⟩ := Stateful.zoom_of_ended served
    rcases not_static_of_stream isStream with ⟨notRoot, notStatic⟩
    simp only [handleRequest, notRoot, notStatic, isStream, if_true, if_false]
    rw [Stateful.bind_of_ok opens]
    exact serves
  · constructor
    · rintro rfl
      exact conversation.quits
    · intro quits
      rcases exists_conversation_of_quits lib.rot13 quits with ⟨other, last, quitting⟩
      rcases serveMessages_conversation lib quitting heldOpened _ enough with ⟨_, _, returned⟩
      rw [served] at returned
      cases ending with
      | ok result => rfl
      | error stop => cases returned

section Replies

/-- A name below the directory of the files. -/
def Confined (filename : Bytes) : Prop :=
  ascii "HTTPWebsocketServer-Static/" <+: filename ∧ ¬Contains filename (ascii "..")

/-- The headers of a reply with a body. -/
def responseHeaders (serverName contentType : Bytes) : Headers :=
  (ascii "Content-Type", contentType) ::
    if serverName = [] then [] else [(ascii "Server", serverName)]

theorem sendResponse_ok {code : ℕ} {explanation : String}
    (known : explanationForResponseCode code = some explanation) (serverName contentType : Bytes)
    (body : Bytes) (loaded : List Bytes) :
    sendResponse serverName code contentType body ⟨stream, [], [], loaded⟩ =
      .ok () ⟨stream, responseHeaders serverName contentType,
        [⟨code, explanation, responseHeaders serverName contentType, body⟩], loaded⟩ := by
  by_cases unnamed : serverName = []
  · simp [sendResponse, addOutputHeader, sendReply, responseHeaders, unnamed, known, bind,
      EStateM.bind]
  · simp [sendResponse, addOutputHeader, sendReply, responseHeaders, unnamed, known, bind,
      EStateM.bind]

/-- One reply is sent, and only files of the directory have been loaded. -/
def RepliesOnce (serverName : Bytes) (stream : Stream)
    (result : EStateM.Result Stop Handling Unit) : Prop :=
  ∃ reply contentType loaded,
    result = .ok () ⟨stream, responseHeaders serverName contentType, [reply], loaded⟩ ∧
      reply.outputHeaders = responseHeaders serverName contentType ∧
      reply.code ∈ [200, 400, 404, 500] ∧ ∀ filename ∈ loaded, Confined filename

theorem handleStatic_replies (lib : ServerLibrary) (serverName path : Bytes) (stream : Stream) :
    RepliesOnce serverName stream (handleStatic lib serverName path ⟨stream, [], [], []⟩) := by
  by_cases dots : Contains (ascii "HTTPWebsocketServer-Static/" ++ path.drop 8) (ascii "..")
  · simp only [handleStatic, dots, if_true]
    exact ⟨_, _, _, sendResponse_ok rfl serverName _ _ [], rfl, by simp, by simp⟩
  · have confined : ∀ filename ∈ [ascii "HTTPWebsocketServer-Static/" ++ path.drop 8],
        Confined filename := by
      intro filename mem
      rw [List.mem_singleton] at mem
      rw [mem]
      exact ⟨List.prefix_append _ _, dots⟩
    simp only [handleStatic, dots, if_false]
    have loads : loadFile lib (ascii "HTTPWebsocketServer-Static/" ++ path.drop 8)
        ⟨stream, [], [], []⟩ = .ok _ ⟨stream, [], [], [_]⟩ := rfl
    rw [Stateful.bind_of_ok loads]
    cases lib.loadFile (ascii "HTTPWebsocketServer-Static/" ++ path.drop 8) with
    | error what => exact ⟨_, _, _, sendResponse_ok rfl serverName _ _ _, rfl, by simp, confined⟩
    | ok data =>
        dsimp only
        split
        · exact ⟨_, _, _, sendResponse_ok rfl serverName _ _ _, rfl, by simp, confined⟩
        · exact ⟨_, _, _, sendResponse_ok rfl serverName _ _ _, rfl, by simp, confined⟩

/-- What is done with the connection leaves the replies and the loaded files as they are. -/
theorem endState_lift {Result : Type} (action : StreamM Result) (handling : Handling) :
    ∃ stream, Stateful.endState ((liftM action : HandlerM Result) handling) =
      { handling with stream := stream } := by
  cases ends : action handling.stream with
  | ok result stream =>
      have lifted : (liftM action : HandlerM Result) handling =
          .ok result { handling with stream := stream } := Stateful.zoom_of_ok ends
      exact ⟨stream, congrArg Stateful.endState lifted⟩
  | error stop stream =>
      have lifted : (liftM action : HandlerM Result) handling =
          .error stop { handling with stream := stream } := Stateful.zoom_of_error ends
      exact ⟨stream, congrArg Stateful.endState lifted⟩

theorem enableWebsockets_none (lib : ServerLibrary) {request : InboundRequest}
    (noKey : request.websocketKey = none) (stream : Stream) :
    enableWebsockets lib request stream = .ok false stream := by
  rw [enableWebsockets, noKey]
  rfl

theorem handleRequest_stream_none (lib : ServerLibrary) (serverName : Bytes)
    {request : InboundRequest} (isStream : ascii "/stream" <+: request.uri)
    (noKey : request.websocketKey = none) (stream : Stream) :
    RepliesOnce serverName stream
      (handleRequest lib serverName request ⟨stream, [], [], []⟩) := by
  have refused : (liftM (enableWebsockets lib request) : HandlerM Bool) ⟨stream, [], [], []⟩ =
      .ok false ⟨stream, [], [], []⟩ :=
    Stateful.zoom_of_ok (enableWebsockets_none lib noKey stream)
  rcases not_static_of_stream isStream with ⟨notRoot, notStatic⟩
  simp only [handleRequest, notRoot, notStatic, isStream, if_true, if_false]
  rw [Stateful.bind_of_ok refused]
  exact ⟨_, _, _, sendResponse_ok rfl serverName _ _ _, rfl, by simp, by simp⟩

theorem handleRequest_other (lib : ServerLibrary) (serverName : Bytes) {request : InboundRequest}
    (notStream : ¬ascii "/stream" <+: request.uri) (stream : Stream) :
    RepliesOnce serverName stream
      (handleRequest lib serverName request ⟨stream, [], [], []⟩) := by
  have index : ascii "/static/" <+: ascii "/static/index.html" := by decide
  by_cases isRoot : request.uri = ascii "/"
  · simp only [handleRequest, isRoot, if_true, index]
    exact handleStatic_replies lib serverName _ stream
  · by_cases isStatic : ascii "/static/" <+: request.uri
    · simp only [handleRequest, isRoot, isStatic, if_true, if_false]
      exact handleStatic_replies lib serverName _ stream
    · simp only [handleRequest, isRoot, isStatic, notStream, if_false]
      exact ⟨_, _, _, sendResponse_ok rfl serverName _ _ _, rfl, by simp, by simp⟩

/-- A request that does not become a websocket is answered by one reply, and the files that are
loaded for it are in the directory; one that does is not answered by a reply, however its
conversation ends. -/
theorem handleRequest_replies (lib : ServerLibrary) (serverName : Bytes)
    (request : InboundRequest) (stream : Stream) :
    (¬(ascii "/stream" <+: request.uri ∧ request.websocketKey ≠ none) →
      RepliesOnce serverName stream
        (handleRequest lib serverName request ⟨stream, [], [], []⟩)) ∧
    (ascii "/stream" <+: request.uri ∧ request.websocketKey ≠ none →
      ∃ after, Stateful.endState (handleRequest lib serverName request ⟨stream, [], [], []⟩) =
        ⟨after, [], [], []⟩) := by
  constructor
  · intro notUpgraded
    by_cases isStream : ascii "/stream" <+: request.uri
    · have noKey : request.websocketKey = none := by
        by_contra isKey
        exact notUpgraded ⟨isStream, isKey⟩
      exact handleRequest_stream_none lib serverName isStream noKey stream
    · exact handleRequest_other lib serverName isStream stream
  · rintro ⟨isStream, isKey⟩
    rcases Option.ne_none_iff_exists'.mp isKey with ⟨key, hasKey⟩
    rcases not_static_of_stream isStream with ⟨notRoot, notStatic⟩
    simp only [handleRequest, notRoot, notStatic, isStream, if_true, if_false]
    cases enabled : enableWebsockets lib request stream with
    | ok upgraded opened =>
        have opens : (liftM (enableWebsockets lib request) : HandlerM Bool)
            ⟨stream, [], [], []⟩ = .ok upgraded ⟨opened, [], [], []⟩ :=
          Stateful.zoom_of_ok enabled
        rw [enableWebsockets, hasKey] at enabled
        rcases Stateful.bind_eq_ok_iff.mp enabled with ⟨_, _, _, returned⟩
        cases returned
        rw [Stateful.bind_of_ok opens]
        exact endState_lift (serveWebsocket lib) ⟨opened, [], [], []⟩
    | error stop after =>
        have fails : (liftM (enableWebsockets lib request) : HandlerM Bool)
            ⟨stream, [], [], []⟩ = .error stop ⟨after, [], [], []⟩ :=
          Stateful.zoom_of_error enabled
        rw [Stateful.bind_of_error fails]
        exact ⟨after, rfl⟩

end Replies

section Samples

/-- The letters are moved by thirteen places. -/
def rot13 (data : Bytes) : Bytes :=
  data.map fun char =>
    if 0x41 ≤ char ∧ char ≤ 0x5A then 0x41 + (char - 0x41 + 13) % 26
    else if 0x61 ≤ char ∧ char ≤ 0x7A then 0x61 + (char - 0x61 + 13) % 26
    else char

/-- The handshake of the protocol's specification. -/
def sampleServerLibrary : ServerLibrary where
  sha1 _ := [0xB3, 0x7A, 0x4F, 0x2C, 0xC0, 0x62, 0x4F, 0x16, 0x90, 0xF6, 0x46, 0x06, 0xCF, 0x38,
    0x59, 0x45, 0xB2, 0xBE, 0xC4, 0xEA]
  base64Encode _ := ascii "s3pPLMBiTxaQ9kYGzzhZRbK+xOo="
  rot13 := rot13
  loadFile _ := .error (ascii "cannot open")

def sampleRequest : InboundRequest where
  command := .get
  uri := ascii "/stream"
  inputHeaders := [(ascii "connection", ascii "Upgrade"), (ascii "Upgrade", ascii "WebSocket"),
    (ascii "Sec-WebSocket-Key", ascii "dGhlIHNhbXBsZSBub25jZQ==")]

/-- A frame in the short form; a payload that does not fit is cut. -/
def shortFrame (head : UInt8) (masked : Bool) (payload : Bytes) : Frame where
  head
  form := .short
  maskKey := if masked then some [1, 2, 3, 4] else none
  payload := payload.take 125
  lengthFits := Nat.lt_succ_of_le (List.length_take_le 125 payload)
  keyFits := by
    intro key isKey
    cases masked with
    | false => simp at isKey
    | true =>
        simp only [if_true, Option.mem_some_iff] at isKey
        rw [← isKey]
        rfl
  payloadSmall := Nat.lt_of_le_of_lt (List.length_take_le 125 payload) (by decide)

/-- "Hi" in one frame and "quit" in two, with a ping between them. -/
def sampleFrames : List Frame :=
  [shortFrame 0x81 true (ascii "Hi"), shortFrame 0x01 false (ascii "qu"),
    shortFrame 0x89 false (ascii "p"), shortFrame 0x80 false (ascii "it")]

theorem quits_sampleFrames : Quits sampleFrames := by
  refine ⟨[sampleFrames.take 1], sampleFrames.drop 1, [], rfl, ?_, ?_, by decide⟩
  · intro message mem
    rw [List.mem_singleton] at mem
    subst mem
    exact ⟨by decide, ⟨by decide, by decide⟩, [], _, rfl, by decide, by decide, by decide⟩
  · exact ⟨by decide, ⟨by decide, by decide⟩, (sampleFrames.drop 1).take 2, _, rfl, by decide,
      by decide, by decide⟩

theorem handleRequest_session_sample :
    ∃ said rest, ∃ after : Stream,
      Conversation rot13 sampleFrames said (.ok ()) rest ∧
      handleRequest sampleServerLibrary [] sampleRequest
          ⟨⟨[], .bytewise (sampleFrames.flatMap Frame.encode)⟩, [], [], []⟩ =
        .ok () ⟨after, [], [], []⟩ ∧
      after.Holds [] (rest.flatMap Frame.encode)
        (switchingProtocols sampleServerLibrary (ascii "dGhlIHNhbXBsZSBub25jZQ==") ++ said) := by
  have holds : Stream.Holds ⟨[], .bytewise (sampleFrames.flatMap Frame.encode)⟩ []
      (sampleFrames.flatMap Frame.encode) [] :=
    ⟨rfl, rfl, rfl, Socket.healthy_bytewise _⟩
  have isKey : sampleRequest.websocketKey = some (ascii "dGhlIHNhbXBsZSBub25jZQ==") := by decide
  rcases handleRequest_session sampleServerLibrary [] (List.prefix_refl _) isKey sampleFrames holds
    with ⟨said, ending, rest, after, conversation, ends, held, returns⟩
  rw [returns.mpr quits_sampleFrames] at conversation ends
  exact ⟨said, rest, after, conversation, ends, held⟩

end Samples

end Server

end EventAsync.HTTP
