import EventAsync.Lib.SharedMachine
import EventAsync.Memcache.ItemStore

/-!
# Several clients of one store

Every user of a store has a client and a connection of its own.  A call puts its
request on the connection; at some later time the server takes the request from
there, applies its operation to the store and puts the responses on the connection;
and again later the call receives them and ends.  Between these moments other users
do the same.  Whatever the order of all this is, the users see a store that is
called once at a time.
-/

namespace EventAsync.Memcache

open ByteCodec SharedMachine

/-- What is under way on a connection. -/
inductive Line where
  | free
  | request (call : Call) (bytes : Bytes)
  | responses (call : Call) (bytes : Bytes)

/-- A store, and the client and the connection of every user. -/
structure Network (User State : Type) where
  state : State
  client : User → Client
  line : User → Line

/-- How a call ends whose responses have arrived. -/
def Call.ending (call : Call) (client : Client) : Option (Except Exception Outcome × Client) :=
  match call.perform client with
  | .ok outcome after => some (.ok outcome, after)
  | .error (.raised exception) after => some (.error exception, after)
  | .error _ _ => none

/-- The responses to a request, as the server puts them on the connection. -/
def Store.respond {State : Type} (store : Store State) (state : State) (bytes : Bytes) :
    Option (Bytes × State) :=
  match Request.parse bytes with
  | some (request, []) =>
      (Operation.decode request).map fun operation =>
        let (reply, next) := store.apply state operation
        ((reply.responses request.opcode).flatMap Response.wire, next)
  | _ => none

namespace Network

variable {User State : Type}

/-- Nothing is under way on any connection. -/
def connected (state : State) (client : User → Client) : Network User State where
  state := state
  client := client
  line := fun _ => .free

variable [DecidableEq User]

def step (store : Store State) (network : Network User State) :
    Event User Call (Except Exception Outcome) → Option (Network User State)
  | .invoke user call =>
      match network.line user with
      | .free =>
          some { network with
            line := Function.update network.line user
              (.request call (call.written (network.client user))) }
      | _ => none
  | .effect user =>
      match network.line user with
      | .request call bytes =>
          (store.respond network.state bytes).map fun (responses, next) =>
            { network with
              state := next
              line := Function.update network.line user (.responses call responses) }
      | _ => none
  | .finish user outcome =>
      match network.line user with
      | .responses call bytes =>
          (call.ending ((network.client user).deliver bytes)).bind fun (ending, after) =>
            if ending = outcome then
              some { network with
                client := Function.update network.client user after
                line := Function.update network.line user .free }
            else none
      | _ => none

/-- What has begun on the connection of a user can go on. -/
def Proceeds (store : Store State) (network : Network User State) (user : User) : Prop :=
  match network.line user with
  | .free => True
  | .request _ _ => ∃ next, network.step store (.effect user) = some next
  | .responses _ _ => ∃ outcome next, network.step store (.finish user outcome) = some next

end Network

/-- The requests of the calls can be told from their bytes. -/
def Representable {User : Type} : Event User Call (Except Exception Outcome) → Prop
  | .invoke _ call => call.request.Representable
  | _ => True

/-- What is under way on a connection is what its user waits for. -/
def Line.Carries : Line → Phase Call (Except Exception Outcome) → Prop
  | .free, .idle => True
  | .request call bytes, .invoked input =>
      call = input ∧ bytes = call.request.wire ∧ call.request.Representable
  | .responses call bytes, .answered outcome => Client.Concludes call.conclude bytes outcome
  | _, _ => False

section Lines

variable {phase : Phase Call (Except Exception Outcome)} {call : Call} {bytes : Bytes}

theorem Line.carries_free : Line.free.Carries phase ↔ phase = .idle := by
  cases phase <;> simp [Carries]

theorem Line.carries_request : (Line.request call bytes).Carries phase ↔
    phase = .invoked call ∧ bytes = call.request.wire ∧ call.request.Representable := by
  cases phase <;> simp [Carries, eq_comm]

theorem Line.carries_responses : (Line.responses call bytes).Carries phase ↔
    ∃ outcome, phase = .answered outcome ∧ Client.Concludes call.conclude bytes outcome := by
  cases phase <;> simp [Carries]

end Lines

namespace Store

open Call Client

variable {State : Type} {store : Store State}

/-- The server answers the request of a call as the store does. -/
theorem respond_wire (store : Store State) (state : State) {call : Call}
    (representable : call.request.Representable) :
    ∃ bytes outcome next, store.respond state call.request.wire = some (bytes, next) ∧
      store.direct state call = some (outcome, next) ∧
      Concludes call.conclude bytes outcome := by
  rcases exists_concluded (store.answers state call.operation) with ⟨outcome, concluded⟩
  refine ⟨_, outcome, _, ?_, direct_eq_some.mpr ⟨concluded, rfl⟩,
    concludes_reply (store.answers state call.operation) concluded call.request.opcode⟩
  rw [respond, Request.parse_wire call.extras_length representable]
  simp only [Operation.decode_request, Option.map_some]

end Store

namespace Call

open Client

/-- A call ends with what its responses conclude. -/
theorem ending_deliver {call : Call} {client : Client} {bytes : Bytes}
    {outcome : Except Exception Outcome} (receives : client.Receives [])
    (concludes : Concludes call.conclude bytes outcome) :
    ∃ after, call.ending (client.deliver bytes) = some (outcome, after) ∧ after.Receives [] := by
  rcases command_concludes call.appends_fill call.request.wire_ne_nil concludes
    (receives_deliver receives bytes) with ⟨after, unread, ends⟩
  rw [← perform_eq] at ends
  refine ⟨after, ?_, unread⟩
  rw [ending, ends]
  cases outcome with
  | ok value => rfl
  | error exception => rfl

end Call

namespace Network

variable {User State : Type} {store : Store State} {network next : Network User State}
  {shared : Shared User State Call (Except Exception Outcome)}

/-- The network behaves as the shared store does from here on. -/
structure Represents (network : Network User State)
    (shared : Shared User State Call (Except Exception Outcome)) : Prop where
  state_eq : network.state = shared.state
  unread : ∀ user, (network.client user).Receives []
  carries : ∀ user, (network.line user).Carries (shared.phase user)

theorem represents_connected (state : State) {client : User → Client}
    (unread : ∀ user, (client user).Receives []) :
    (connected state client).Represents (start state) where
  state_eq := rfl
  unread := unread
  carries := fun _ => trivial

variable [DecidableEq User]

/-- What changes on one connection does not change the others. -/
theorem Represents.update (represents : network.Represents shared) (user : User) {state : State}
    {client : Client} {line : Line} {phase : Phase Call (Except Exception Outcome)}
    (unread : client.Receives []) (carries : line.Carries phase) :
    Network.Represents
      { state := state
        client := Function.update network.client user client
        line := Function.update network.line user line }
      { state := state, phase := Function.update shared.phase user phase } := by
  refine ⟨rfl, ?_, ?_⟩
  · intro other
    by_cases same : other = user
    · subst same
      simpa using unread
    · simpa [same] using represents.unread other
  · intro other
    by_cases same : other = user
    · subst same
      simpa using carries
    · simpa [same] using represents.carries other

theorem Represents.invoke (represents : network.Represents shared) {user : User} {call : Call}
    (representable : call.request.Representable)
    (stepped : network.step store (.invoke user call) = some next) :
    ∃ after, SharedMachine.step store.direct shared (.invoke user call) = some after ∧
      next.Represents after := by
  have carries := represents.carries user
  have unread := represents.unread user
  rw [Network.step] at stepped
  split at stepped
  case h_1 free =>
    cases stepped
    rw [free, Line.carries_free] at carries
    have sends : (Line.request call (call.written (network.client user))).Carries
        (.invoked call) := ⟨rfl, Store.written_eq call unread, representable⟩
    simp only [SharedMachine.step, carries]
    exact ⟨_, rfl, by simpa [represents.state_eq] using represents.update user unread sends⟩
  case h_2 => cases stepped

theorem Represents.effect (represents : network.Represents shared) {user : User}
    (stepped : network.step store (.effect user) = some next) :
    ∃ after, SharedMachine.step store.direct shared (.effect user) = some after ∧
      next.Represents after := by
  have carries := represents.carries user
  rw [Network.step] at stepped
  split at stepped
  case h_1 call bytes waits =>
    rw [waits, Line.carries_request] at carries
    rcases carries with ⟨invoked, rfl, representable⟩
    rcases store.respond_wire network.state representable with
      ⟨responses, outcome, state, responds, answered, concludes⟩
    rw [responds, Option.map_some] at stepped
    cases stepped
    rw [represents.state_eq] at answered
    simp only [SharedMachine.step, invoked, answered, Option.map_some]
    have sends : (Line.responses call responses).Carries (.answered outcome) := concludes
    exact ⟨_, rfl, by simpa using represents.update user (represents.unread user) sends⟩
  case h_2 => cases stepped

theorem Represents.finish (represents : network.Represents shared) {user : User}
    {outcome : Except Exception Outcome}
    (stepped : network.step store (.finish user outcome) = some next) :
    ∃ after, SharedMachine.step store.direct shared (.finish user outcome) = some after ∧
      next.Represents after := by
  have carries := represents.carries user
  rw [Network.step] at stepped
  split at stepped
  case h_1 call bytes waits =>
    rw [waits, Line.carries_responses] at carries
    rcases carries with ⟨answer, answered, concludes⟩
    rcases Call.ending_deliver (represents.unread user) concludes with ⟨client, ends, unread⟩
    rw [ends, Option.bind_some] at stepped
    rcases Option.ite_none_right_eq_some.mp stepped with ⟨same, ended⟩
    cases ended
    simp only [SharedMachine.step, answered, if_pos same]
    have nothing : Line.free.Carries .idle := trivial
    exact ⟨_, rfl, by simpa [represents.state_eq] using represents.update user unread nothing⟩
  case h_2 => cases stepped

/-- Every step of the network is one of the shared store. -/
theorem Represents.step (represents : network.Represents shared)
    {event : Event User Call (Except Exception Outcome)} (representable : Representable event)
    (stepped : network.step store event = some next) :
    ∃ after, SharedMachine.step store.direct shared event = some after ∧
      next.Represents after := by
  cases event with
  | invoke user call => exact represents.invoke representable stepped
  | effect user => exact represents.effect stepped
  | finish user outcome => exact represents.finish stepped

theorem Represents.proceeds (represents : network.Represents shared) (user : User) :
    network.Proceeds store user := by
  have carries := represents.carries user
  rw [Proceeds]
  cases waits : network.line user with
  | free => trivial
  | request call bytes =>
      rw [waits, Line.carries_request] at carries
      rcases carries with ⟨_, rfl, representable⟩
      rcases store.respond_wire network.state representable with
        ⟨responses, outcome, state, responds, _⟩
      simp [Network.step, waits, responds]
  | responses call bytes =>
      rw [waits, Line.carries_responses] at carries
      rcases carries with ⟨outcome, _, concludes⟩
      rcases Call.ending_deliver (represents.unread user) concludes with ⟨client, ends, _⟩
      refine ⟨outcome, ?_⟩
      simp [Network.step, waits, ends]

end Network

/-- The store counts under a key, wrapping around. -/
def Store.Counts {State : Type} (store : Store State) (key : Bytes)
    (number : State → Option UInt64) : Prop :=
  ∀ state current delta initial expirationSecs, number state = some current →
    (∃ cas, (store.apply state (.count false key delta initial expirationSecs)).1 =
      .number (current + delta) cas) ∧
    number (store.apply state (.count false key delta initial expirationSecs)).2 =
      some (current + delta)

/-- The call adds one to what is under the key. -/
def Call.Increments (key : Bytes) (call : Call) : Prop :=
  ∃ initialValue expirationSecs, call = .increment key 1 initialValue expirationSecs false

namespace Store

variable {State : Type} {store : Store State} {key : Bytes} {number : State → Option UInt64}
  {state final : State} {current : UInt64}

/-- The outcome of the call that is the given number of calls later than the first one. -/
def counted (current : UInt64) (later : ℕ) : Except Exception Outcome :=
  .ok (.number (current + .ofNat (later + 1)))

theorem Counts.direct (counts : store.Counts key number) (found : number state = some current)
    {call : Call} (increments : call.Increments key) {outcome : Except Exception Outcome}
    (answered : store.direct state call = some (outcome, final)) :
    outcome = .ok (.number (current + 1)) ∧ number final = some (current + 1) := by
  rcases increments with ⟨initialValue, expirationSecs, rfl⟩
  rcases direct_eq_some.mp answered with ⟨concluded, rfl⟩
  rcases counts state current 1 (Client.initialOrDelta 1 initialValue) expirationSecs found with
    ⟨⟨cas, replies⟩, now⟩
  rw [Call.operation, replies] at concluded
  cases concluded
  exact ⟨rfl, now⟩

theorem Counts.run (counts : store.Counts key number) (found : number state = some current)
    {calls : List Call} (increments : ∀ call ∈ calls, call.Increments key)
    {outcomes : List (Except Exception Outcome)}
    (ran : Machine.run store.direct state calls = some (outcomes, final)) :
    outcomes = (List.range calls.length).map (counted current) ∧
      number final = some (current + .ofNat calls.length) := by
  induction calls generalizing state current outcomes with
  | nil =>
      cases ran
      exact ⟨rfl, by simpa using found⟩
  | cons call calls ih =>
      rcases Machine.run_cons_eq_some.mp ran with ⟨outcome, next, others, answered, later, rfl⟩
      rcases counts.direct found (increments call List.mem_cons_self) answered with ⟨rfl, now⟩
      rcases ih now (fun other mem => increments other (List.mem_cons_of_mem call mem)) later with
        ⟨rfl, last⟩
      have shift : ∀ count : ℕ,
          current + 1 + UInt64.ofNat count = current + .ofNat (count + 1) := by
        intro count
        rw [UInt64.add_assoc, UInt64.ofNat_add, UInt64.add_comm 1]
        rfl
      refine ⟨?_, by rw [last, shift, List.length_cons]⟩
      rw [List.length_cons, List.range_succ_eq_map, List.map_cons, List.map_map]
      congr 1
      apply List.map_congr_left
      intro count _
      rw [Function.comp_apply, counted, counted, shift]

/-- The numbers of fewer than 2⁶⁴ calls are different. -/
theorem nodup_counted (current : UInt64) {count : ℕ} (few : count ≤ 2 ^ 64) :
    ((List.range count).map (counted current)).Nodup := by
  apply List.Nodup.map_on _ List.nodup_range
  intro first firstMem second secondMem same
  rw [List.mem_range] at firstMem secondMem
  simp only [counted, Except.ok.injEq, Outcome.number.injEq, UInt64.add_right_inj] at same
  have sameNumber := congrArg UInt64.toNat same
  simp only [UInt64.toNat_ofNat'] at sameNumber
  omega

/-- One number, which can only be counted. -/
def counter : Store UInt64 where
  apply number
    | .count false _ delta _ _ => (.number (number + delta) 0, number + delta)
    | _ => (.error 0x81 [], number)
  answers := by
    intro number operation
    split
    · trivial
    · exact ⟨by decide, by simp⟩

theorem counts_counter (key : Bytes) : counter.Counts key some :=
  fun number current delta _ _ found => by
    cases found
    exact ⟨⟨0, rfl⟩, rfl⟩

/-- Two users count; the call that is invoked first takes effect and finishes last. -/
def twoUsers : List (Event Bool Call (Except Exception Outcome)) :=
  [.invoke false (.increment [107] 1 0 0 false), .invoke true (.increment [107] 1 0 0 false),
    .effect true, .effect false, .finish true (.ok (.number 8)), .finish false (.ok (.number 9))]

theorem exists_run_twoUsers : ∃ network, Transition.run (Network.step counter)
    (.connected 7 fun _ => Call.bytewiseClient []) twoUsers = some network :=
  Option.isSome_iff_exists.mp (by decide +kernel)

theorem representable_twoUsers : ∀ event ∈ twoUsers, Representable event := by
  have fits : (Call.increment [107] 1 0 0 false).request.Representable := by decide
  intro event mem
  fin_cases mem
  · exact fits
  · exact fits
  all_goals trivial

theorem unread_bytewise (user : Bool) :
    ((fun _ => Call.bytewiseClient []) user : Client).Receives [] :=
  ⟨_, rfl, rfl, Socket.healthy_bytewise []⟩

end Store

end EventAsync.Memcache
