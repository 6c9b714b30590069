import EventAsync.Lib.Transition
import EventAsync.MySQL.ClientSteps

/-!
# Connecting means authenticating

`connect` stores the new connection before the handshake, and nothing closes it
when the handshake raises.  From then on the client holds a connection that is
not authenticated: another `connect` returns at once, and commands are sent on
it.  The flag of `Usage` tells whether this has happened since the last `quit`,
and the calls keep their promise exactly as long as it has not.
-/

namespace EventAsync.MySQL

namespace Client

open Buffer ProtocolBuffer

variable {client after : Client} {connection : Connection}

theorem removeServerInfo_keeps : Keeps Continues removeServerInfo := by
  have traffic := continues_persistent.traffic
  have field : ∀ update : Client → Client, (∀ client, (update client).fd = client.fd) →
      Keeps Continues (liftM (modify update : ClientM Unit) : SessionM Unit) :=
    fun _ keeps => continues_persistent.onFields keeps
  apply traffic.bind (traffic.onBuffer _)
  intro version
  apply traffic.check
  apply traffic.bind (traffic.onBuffer _)
  intro serverVersion
  refine traffic.bind (field _ fun _ => rfl) ?_
  intro _
  apply traffic.bind (traffic.onBuffer _)
  intro connectionId
  refine traffic.bind (field _ fun _ => rfl) ?_
  intro _
  apply traffic.bind (traffic.onBuffer _)
  intro challengeStart
  apply traffic.bind (traffic.onBuffer _)
  intro _
  apply traffic.bind (traffic.onBuffer _)
  intro capFlagsLow
  refine traffic.bind (field _ fun _ => rfl) ?_
  intro _
  apply traffic.bind (traffic.onBuffer _)
  intro charset
  refine traffic.bind (field _ fun _ => rfl) ?_
  intro _
  apply traffic.bind (traffic.onBuffer _)
  intro statusFlags
  refine traffic.bind (field _ fun _ => rfl) ?_
  intro _
  apply traffic.bind (traffic.onBuffer _)
  intro capFlagsHigh
  refine traffic.bind (field _ fun _ => rfl) ?_
  intro _
  exact traffic.pure _

/-- A coroutine that returns only on an authenticated connection. -/
def Authenticating (action : SessionM Unit) : Prop :=
  ∀ session, match action session with
    | .ok _ after => session.client.fd.isSome = true →
        ∃ later, after.client.fd = some later ∧ later.authenticated = true
    | .error _ after => session.client.Continues after.client

namespace Authenticating

theorem throw (stop : Stop) : Authenticating (MonadExcept.throw stop) :=
  fun session => continues_persistent.traffic.refl session.client

theorem bind {Result : Type} {action : SessionM Result} {next : Result → SessionM Unit}
    (first : Keeps Continues action) (second : ∀ result, Authenticating (next result)) :
    Authenticating (action >>= next) := by
  intro session
  cases ends : action session with
  | error stop after =>
      rw [Stateful.bind_of_error ends]
      exact (first.of_error ends).1
  | ok result middle =>
      have continues : session.client.Continues middle.client := first.of_ok ends
      have holds := second result middle
      rw [Stateful.bind_of_ok ends]
      cases nextEnds : next result middle with
      | ok _ after =>
          rw [nextEnds] at holds
          intro isOpen
          exact holds (continues.isSome_eq.trans isOpen)
      | error stop after =>
          rw [nextEnds] at holds
          exact continues_persistent.traffic.trans _ _ _ continues holds

theorem awaitAuthentication (authPluginName : ByteCodec.Bytes) (fuel : ℕ) :
    Authenticating (Client.awaitAuthentication authPluginName fuel) := by
  have traffic := continues_persistent.traffic
  induction fuel with
  | zero => exact throw _
  | succ fuel ih =>
      apply bind traffic.reading
      intro _
      apply bind (traffic.onBuffer _)
      intro responseCommand
      split
      · intro session isOpen
        rcases Option.isSome_iff_exists.mp isOpen with ⟨connection, fd⟩
        refine ⟨{ connection with authenticated := true }, ?_, rfl⟩
        simp [setAuthenticated, fd]
      · split
        · split
          · apply bind (traffic.onBuffer _)
            intro command
            split
            · exact ih
            · split
              · apply bind (traffic.onBuffer _)
                intro length
                split
                · exact bind (traffic.throw _) fun _ => throw _
                · exact throw _
              · exact throw _
          · exact throw _
        · split
          · apply bind (traffic.onBuffer _)
            intro errorCode
            apply bind (traffic.onBuffer _)
            intro _
            apply bind (traffic.onBuffer _)
            intro _
            exact bind (traffic.onBuffer _) fun message => throw _
          · exact throw _

theorem initialHandshake (lib : Library) (fuel : ℕ) :
    Authenticating (Client.initialHandshake lib fuel) := by
  have traffic := continues_persistent.traffic
  refine bind (continues_persistent.onFields fun _ => rfl) ?_
  intro _
  apply bind traffic.reading
  intro _
  apply bind removeServerInfo_keeps
  intro challengeStart
  apply bind (traffic.onBuffer _)
  intro authData
  dsimp only
  split
  · exact throw _
  · apply bind (fun session => traffic.refl session.client)
    intro client
    split
    · exact throw _
    · apply bind (traffic.onBuffer _)
      intro _
      apply bind traffic.writing
      intro _
      exact awaitAuthentication _ fuel

end Authenticating

theorem connect_of_open (lib : Library) (host : Except Exception Socket) (fuel : ℕ)
    (isOpen : client.fd = some connection) : connect lib host fuel client = .ok () client := by
  have state : (get : ClientM Client) client = .ok client client := rfl
  unfold connect
  rw [Stateful.bind_of_ok state, if_pos (by simp [isOpen])]
  rfl

theorem connect_of_refused (lib : Library) (exception : Exception) (fuel : ℕ)
    (closed : client.fd = none) :
    connect lib (.error exception) fuel client = .error (.raised exception) client := by
  have state : (get : ClientM Client) client = .ok client client := rfl
  unfold connect
  rw [Stateful.bind_of_ok state, if_neg (by simp [closed])]
  rfl

/-- A new connection is left in the client whether or not its handshake succeeds. -/
theorem connect_of_accepted (lib : Library) (socket : Socket) (fuel : ℕ)
    (closed : client.fd = none) :
    match connect lib (.ok socket) fuel client with
    | .ok _ after => ∃ connection, after.fd = some connection ∧ connection.authenticated = true
    | .error _ after =>
        ∃ connection, after.fd = some connection ∧ connection.authenticated = false := by
  have state : (get : ClientM Client) client = .ok client client := rfl
  have handshake := Authenticating.initialHandshake lib fuel
    ⟨{ client with fd := some (.opened socket) }, []⟩
  have connected : connect lib (.ok socket) fuel client =
      withBuffer (initialHandshake lib fuel) { client with fd := some (.opened socket) } := by
    unfold connect
    rw [Stateful.bind_of_ok state, if_neg (by simp [closed])]
    rfl
  rw [connected]
  simp only [withBuffer, Stateful.zoom]
  cases ends : initialHandshake lib fuel ⟨{ client with fd := some (.opened socket) }, []⟩ with
  | ok _ after =>
      rw [ends] at handshake
      exact handshake rfl
  | error stop after =>
      rw [ends] at handshake
      rcases handshake.of_open rfl with ⟨later, fd, continues⟩
      exact ⟨later, fd, continues.authenticated⟩

/-- A call to `quit` that returns closes the connection; one that raises leaves it. -/
theorem quit_cases (client : Client) :
    match quit client with
    | .ok _ after => after.fd = none
    | .error _ after => client.Continues after := by
  have traffic := continues_persistent.traffic
  cases asserted : assertConnOpen client with
  | error stop after =>
      have ends : quit client = .error stop after := Stateful.bind_of_error asserted
      rw [ends]
      exact (traffic.assertConnOpen.of_error asserted).1
  | ok _ checked =>
      have continues := traffic.assertConnOpen.of_ok asserted
      have sending := Traffic.withBuffer (traffic.sendCommand quitCommand [])
      cases sent : withBuffer (sendCommand quitCommand []) checked with
      | error stop after =>
          have ends : quit client = .error stop after := by
            rw [quit, Stateful.bind_of_ok asserted, Stateful.bind_of_error sent]
          rw [ends]
          exact traffic.trans _ _ _ continues (sending.of_error sent).1
      | ok _ after =>
          have ends : quit client = .ok () { after with fd := none } := by
            rw [quit, Stateful.bind_of_ok asserted, Stateful.bind_of_ok sent]
            rfl
          rw [ends]

/-- The calls that a user can make of a client. -/
inductive Call where
  | connect (host : Except Exception Socket) (fuel : ℕ)
  | request (command : Request)
  | quit

def Call.perform (lib : Library) : Call → ClientM Unit
  | connect host fuel => Client.connect lib host fuel
  | request command => command.perform lib
  | quit => Client.quit

/-- A client, and whether a call to `connect` has raised in its handshake since the last call to
`quit` that returned. -/
structure Usage where
  client : Client
  handshakeFailed : Bool

namespace Usage

def start (username password : ByteCodec.Bytes) : Usage where
  client := .create username password
  handshakeFailed := false

/-- The flag after a call that returns, and after one that raises. -/
def flagAfter (usage : Usage) (raised : Bool) : Call → Bool
  | .connect (.ok _) _ => usage.handshakeFailed || raised
  | .connect (.error _) _ => usage.handshakeFailed
  | .request _ => usage.handshakeFailed
  | .quit => usage.handshakeFailed && raised

/-- A call that returns or raises leads to a state; one that exceeds its bound does not. -/
def step (lib : Library) (usage : Usage) (call : Call) : Option Usage :=
  match call.perform lib usage.client with
  | .ok _ after => some ⟨after, usage.flagAfter false call⟩
  | .error .outOfFuel _ => none
  | .error _ after => some ⟨after, usage.flagAfter true call⟩

/-- A call to `connect` that returns leaves an authenticated connection, and commands are sent on
authenticated connections only. -/
def Authenticated (lib : Library) (usage : Usage) : Call → Prop
  | .connect host fuel => ∀ after, connect lib host fuel usage.client = .ok () after →
      ∃ connection, after.fd = some connection ∧ connection.authenticated = true
  | .request _ => ∀ connection, usage.client.fd = some connection →
      connection.authenticated = true
  | .quit => True

/-- After a handshake that raised, only `quit` is called until it has returned. -/
def Recovers (usage : Usage) (call : Call) : Prop :=
  usage.handshakeFailed = true → call = .quit

/-- The flag tells exactly whether the client holds a connection without authentication. -/
def FlagRight (usage : Usage) : Prop :=
  match usage.client.fd with
  | none => usage.handshakeFailed = false
  | some connection => connection.authenticated = !usage.handshakeFailed

variable {lib : Library} {usage next : Usage} {call : Call}

theorem flagRight_of_continues {after : Client} (right : usage.FlagRight)
    (continues : usage.client.Continues after) : FlagRight ⟨after, usage.handshakeFailed⟩ := by
  simp only [FlagRight] at right ⊢
  cases isOpen : usage.client.fd with
  | none =>
      have closed : after.fd = none := by
        have same := continues.isSome_eq
        rw [isOpen] at same
        simpa using same
      rw [isOpen] at right
      rw [closed]
      exact right
  | some connection =>
      rcases continues.of_open isOpen with ⟨later, fd, connectionContinues⟩
      rw [isOpen] at right
      rw [fd]
      exact connectionContinues.authenticated.trans right

/-- A step is a call that returned or a call that raised. -/
theorem step_cases (stepped : step lib usage call = some next) :
    call.perform lib usage.client = .ok () next.client ∧
        next.handshakeFailed = usage.flagAfter false call ∨
      (∃ stop, call.perform lib usage.client = .error stop next.client) ∧
        next.handshakeFailed = usage.flagAfter true call := by
  simp only [step] at stepped
  cases ends : call.perform lib usage.client with
  | ok _ after =>
      rw [ends] at stepped
      cases stepped
      exact .inl ⟨rfl, rfl⟩
  | error stop after =>
      rw [ends] at stepped
      cases stop with
      | outOfFuel => cases stepped
      | raised exception =>
          cases stepped
          exact .inr ⟨⟨_, rfl⟩, rfl⟩
      | undefined operation =>
          cases stepped
          exact .inr ⟨⟨_, rfl⟩, rfl⟩

theorem flagRight_connect {host : Except Exception Socket} {fuel : ℕ} (right : usage.FlagRight)
    (stepped : step lib usage (.connect host fuel) = some next) : next.FlagRight := by
  cases isOpen : usage.client.fd with
  | some connection =>
      have ends := connect_of_open lib host fuel isOpen
      have unchanged : next = usage := by
        simp only [step, Call.perform, ends, Option.some.injEq] at stepped
        rw [← stepped]
        cases host with
        | ok socket => simp [flagAfter]
        | error exception => rfl
      rw [unchanged]
      exact right
  | none =>
      have unflagged : usage.handshakeFailed = false := by
        simpa only [FlagRight, isOpen] using right
      cases host with
      | error exception =>
          have ends := connect_of_refused lib exception fuel isOpen
          have unchanged : next = usage := by
            simp only [step, Call.perform, ends, Option.some.injEq] at stepped
            rw [← stepped]
            rfl
          rw [unchanged]
          exact right
      | ok socket =>
          have ends := connect_of_accepted lib socket fuel isOpen
          rcases step_cases stepped with ⟨returned, flag⟩ | ⟨⟨stop, raised⟩, flag⟩
          · simp only [Call.perform] at returned
            rw [returned] at ends
            rcases ends with ⟨connection, fd, authenticated⟩
            simp only [FlagRight, fd, flag, flagAfter, unflagged, authenticated]
            rfl
          · simp only [Call.perform] at raised
            rw [raised] at ends
            rcases ends with ⟨connection, fd, unauthenticated⟩
            simp only [FlagRight, fd, flag, flagAfter, unauthenticated, Bool.or_true]
            rfl

theorem flagRight_request {command : Request} (right : usage.FlagRight)
    (stepped : step lib usage (.request command) = some next) : next.FlagRight := by
  have respects := continues_persistent.traffic.perform lib command
  have unflagged : next.handshakeFailed = usage.handshakeFailed := by
    rcases step_cases stepped with ⟨_, flag⟩ | ⟨_, flag⟩
    · exact flag
    · exact flag
  have continues : usage.client.Continues next.client := by
    rcases step_cases stepped with ⟨returned, _⟩ | ⟨⟨stop, raised⟩, _⟩
    · exact respects.of_ok returned
    · exact (respects.of_error raised).1
  have kept := flagRight_of_continues right continues
  rw [← unflagged] at kept
  exact kept

theorem flagRight_quit (right : usage.FlagRight)
    (stepped : step lib usage .quit = some next) : next.FlagRight := by
  have ends := quit_cases usage.client
  rcases step_cases stepped with ⟨returned, flag⟩ | ⟨⟨stop, raised⟩, flag⟩
  · simp only [Call.perform] at returned
    rw [returned] at ends
    simp only [FlagRight, ends, flag, flagAfter, Bool.and_false]
  · simp only [Call.perform] at raised
    rw [raised] at ends
    have kept := flagRight_of_continues right ends
    simp only [flagAfter, Bool.and_true] at flag
    rw [← flag] at kept
    exact kept

theorem flagRight_step (right : usage.FlagRight) (stepped : step lib usage call = some next) :
    next.FlagRight := by
  cases call with
  | connect host fuel => exact flagRight_connect right stepped
  | request command => exact flagRight_request right stepped
  | quit => exact flagRight_quit right stepped

theorem FlagRight.exists_of_failed (right : usage.FlagRight)
    (failed : usage.handshakeFailed = true) :
    ∃ connection, usage.client.fd = some connection ∧ connection.authenticated = false := by
  simp only [FlagRight, failed] at right
  cases isOpen : usage.client.fd with
  | none =>
      rw [isOpen] at right
      cases right
  | some connection =>
      rw [isOpen] at right
      exact ⟨connection, rfl, right⟩

theorem FlagRight.authenticated_of_open {connection : Connection} (right : usage.FlagRight)
    (unflagged : usage.handshakeFailed = false) (isOpen : usage.client.fd = some connection) :
    connection.authenticated = true := by
  simpa only [FlagRight, isOpen, unflagged, Bool.not_false] using right

theorem authenticated_of_recovers (right : usage.FlagRight) (recovers : usage.Recovers call) :
    usage.Authenticated lib call := by
  cases call with
  | quit => trivial
  | request command =>
      have unflagged : usage.handshakeFailed = false := by
        simpa [Recovers] using recovers
      exact fun connection isOpen => right.authenticated_of_open unflagged isOpen
  | connect host fuel =>
      have unflagged : usage.handshakeFailed = false := by
        simpa [Recovers] using recovers
      intro after returned
      cases isOpen : usage.client.fd with
      | some connection =>
          rw [connect_of_open lib host fuel isOpen] at returned
          cases returned
          exact ⟨connection, isOpen, right.authenticated_of_open unflagged isOpen⟩
      | none =>
          cases host with
          | error exception =>
              rw [connect_of_refused lib exception fuel isOpen] at returned
              cases returned
          | ok socket =>
              have ends := connect_of_accepted lib socket fuel isOpen
              rw [returned] at ends
              exact ends

theorem recovers_of_authenticated (right : usage.FlagRight)
    (authenticated : usage.Authenticated lib call) : usage.Recovers call := by
  intro failed
  rcases right.exists_of_failed failed with ⟨connection, isOpen, unauthenticated⟩
  cases call with
  | quit => rfl
  | request command =>
      have contradicted := authenticated connection isOpen
      rw [unauthenticated] at contradicted
      cases contradicted
  | connect host fuel =>
      rcases authenticated usage.client (connect_of_open lib host fuel isOpen) with
        ⟨held, heldOpen, contradicted⟩
      rw [isOpen] at heldOpen
      cases heldOpen
      rw [unauthenticated] at contradicted
      cases contradicted

theorem flagRight_throughout (lib : Library) (username password : ByteCodec.Bytes)
    (calls : List Call) :
    Transition.Throughout (step lib) FlagRight (start username password) calls := by
  have initial : FlagRight (start username password) := rfl
  apply Transition.throughout_of_preserved _ initial
  intro usage call next right stepped
  exact flagRight_step right stepped

/-- Along every run of a new client, whatever the servers send, every call keeps the promise if
and only if after a handshake that raised only `quit` is called until it has returned. -/
theorem authenticated_iff (lib : Library) (username password : ByteCodec.Bytes)
    (calls : List Call) :
    Transition.Along (step lib) (Authenticated lib) (start username password) calls ↔
      Transition.Along (step lib) Recovers (start username password) calls := by
  have right := flagRight_throughout lib username password calls
  constructor
  · intro along before call after usage split reached
    exact recovers_of_authenticated (right before (call :: after) usage split reached)
      (along before call after usage split reached)
  · intro along before call after usage split reached
    exact authenticated_of_recovers (right before (call :: after) usage split reached)
      (along before call after usage split reached)

/-- A server that answers the connection with an ERR packet, as one with too many connections. -/
def refusingServer : Socket :=
  .bytewise (packet 0 ([0xFF, 0x10, 0x04] ++ ascii "Too many connections"))

/-- The second call returns at once, on the connection that the first one has left open. -/
theorem not_authenticated_connectAgain :
    ¬Transition.Along (step unusedLibrary) (Authenticated unusedLibrary) (start [] [])
      [.connect (.ok refusingServer) 1, .connect (.ok refusingServer) 1] := by
  intro along
  have failed : ∃ usage, step unusedLibrary (start [] []) (.connect (.ok refusingServer) 1) =
      some usage ∧ usage.handshakeFailed = true := ⟨_, rfl, rfl⟩
  rcases failed with ⟨usage, stepped, flagged⟩
  have reached : Transition.run (step unusedLibrary) (start [] [])
      [.connect (.ok refusingServer) 1] = some usage :=
    Transition.run_cons_eq_some.mpr ⟨usage, stepped, rfl⟩
  have right : usage.FlagRight := flagRight_step (show FlagRight (start [] []) from rfl) stepped
  have recovers := recovers_of_authenticated right
    (along [.connect (.ok refusingServer) 1] _ [] usage rfl reached)
  cases recovers flagged

end Usage

end Client

end EventAsync.MySQL
