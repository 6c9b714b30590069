import EventAsync.Memcache.RemoteStore

/-!
# Reading what was written

A store keeps what is written under a key until an operation names the key or
flushes the store.  Over a connection this is what a caller of the client relies
on: after a write that was reported as done, and whatever else is called in
between, `get` returns the value and the flags that were written.
-/

namespace EventAsync.Memcache

open ByteCodec

/-- The operation changes nothing under the key. -/
def Operation.Spares : Operation → Bytes → Prop
  | .get other touched, key => touched = none ∨ other ≠ key
  | .write _ other _ _ _ _, key => other ≠ key
  | .delete other _, key => other ≠ key
  | .count _ other _ _ _, key => other ≠ key
  | .append _ other _, key => other ≠ key
  | .touch other _, key => other ≠ key
  | .flush _, _ => False
  | .noOp, _ => True
  | .version, _ => True
  | .stats _, _ => True

/-- The store keeps a value and flags under a key. -/
structure Store.Keeps {State : Type} (store : Store State)
    (find : State → Bytes → Option (Bytes × UInt32)) : Prop where
  reads : ∀ state key touch value flags, find state key = some (value, flags) →
    ∃ cas, (store.apply state (.get key touch)).1 = .value flags value cas
  writes : ∀ state condition key value flags expirationSecs cas fresh,
    (store.apply state (.write condition key value flags expirationSecs cas)).1 = .done fresh →
    find (store.apply state (.write condition key value flags expirationSecs cas)).2 key =
      some (value, flags)
  spares : ∀ state operation key, operation.Spares key →
    find (store.apply state operation).2 key = find state key

namespace Call

/-- Only a reply without an error makes a write report success. -/
theorem done_of_written {call : Call} {condition : Condition} {key value : Bytes}
    {flags expirationSecs : UInt32} {cas : UInt64}
    (writes : call.operation = .write condition key value flags expirationSecs cas) {reply : Reply}
    (written : call.concluded reply = some (.ok (.written true))) :
    ∃ fresh, reply = .done fresh := by
  cases reply with
  | done fresh => exact ⟨fresh, rfl⟩
  | error status message =>
      rw [concluded, Option.some.injEq] at written
      split at written
      · cases call with
        | set | add | replace => cases written
        | _ => cases writes
      · cases written
  | _ =>
      cases call with
      | set | add | replace => cases written
      | _ => cases writes

end Call

namespace Store

variable {State : Type} {store : Store State} {find : State → Bytes → Option (Bytes × UInt32)}
  {state next : State} {call : Call} {key value : Bytes} {flags : UInt32}
  {outcome : Except Exception Outcome}

theorem direct_eq_some :
    store.direct state call = some (outcome, next) ↔
      call.concluded (store.apply state call.operation).1 = some outcome ∧
        (store.apply state call.operation).2 = next := by
  rw [direct, Option.map_eq_some_iff]
  constructor
  · rintro ⟨_, concluded, same⟩
    cases same
    exact ⟨concluded, rfl⟩
  · rintro ⟨concluded, rfl⟩
    exact ⟨outcome, concluded, rfl⟩

theorem Keeps.found_of_written (keeps : store.Keeps find) {condition : Condition}
    {expirationSecs : UInt32} {cas : UInt64}
    (writes : call.operation = .write condition key value flags expirationSecs cas)
    (ran : store.direct state call = some (.ok (.written true), next)) :
    find next key = some (value, flags) := by
  rcases direct_eq_some.mp ran with ⟨concluded, rfl⟩
  rcases Call.done_of_written writes concluded with ⟨fresh, done⟩
  rw [writes] at done ⊢
  exact keeps.writes _ _ _ _ _ _ _ _ done

theorem Keeps.found_of_run (keeps : store.Keeps find) {calls : List Call}
    {outcomes : List (Except Exception Outcome)} (found : find state key = some (value, flags))
    (spared : ∀ call ∈ calls, call.operation.Spares key)
    (ran : Machine.run store.direct state calls = some (outcomes, next)) :
    find next key = some (value, flags) := by
  have preserved : ∀ state (call : Call) outcome next, find state key = some (value, flags) →
      call.operation.Spares key → store.direct state call = some (outcome, next) →
      find next key = some (value, flags) := by
    intro state call outcome next found spares answered
    rcases direct_eq_some.mp answered with ⟨_, rfl⟩
    rw [keeps.spares state call.operation key spares]
    exact found
  exact Machine.invariant_of_run preserved found spared ran

theorem Keeps.got_of_found (keeps : store.Keeps find) {expirationSecs : UInt32}
    (found : find state key = some (value, flags))
    (ran : store.direct state (.get key expirationSecs) = some (outcome, next)) :
    ∃ cas, outcome = .ok (.got ⟨value, cas, flags, true⟩) := by
  rcases direct_eq_some.mp ran with ⟨concluded, _⟩
  rcases keeps.reads state key (if expirationSecs = 0 then none else some expirationSecs) value
    flags found with ⟨cas, reads⟩
  refine ⟨cas, ?_⟩
  rw [Call.operation, reads] at concluded
  cases concluded
  rfl

end Store

/-- A value of a size that is kept. -/
structure Item where
  value : Bytes
  flags : UInt32
  cas : UInt64
  small : value.length ≤ 2 ^ 20

/-- A store in memory without counters. -/
structure Items where
  find : Bytes → Option Item
  nextCas : UInt64

namespace Items

/-- Keeps a value under a key, unless it is too large. -/
def keep (items : Items) (key value : Bytes) (flags : UInt32) : Reply × Items :=
  if small : value.length ≤ 2 ^ 20 then
    (.done items.nextCas,
      { find := Function.update items.find key (some ⟨value, flags, items.nextCas, small⟩)
        nextCas := items.nextCas + 1 })
  else (.error 3 [], items)

/-- Whether a write applies to what is found under its key. -/
def status (condition : Condition) (cas : UInt64) : Option Item → ResponseStatus
  | none =>
      match condition with
      | .always => if cas = 0 then .ok else .keyNotFound
      | .absent => .ok
      | .present => .keyNotFound
  | some item =>
      match condition with
      | .absent => .keyExists
      | _ => if cas = 0 ∨ cas = item.cas then .ok else .keyExists

def apply (items : Items) : Operation → Reply × Items
  | .get key _ =>
      match items.find key with
      | none => (.error ResponseStatus.keyNotFound.code [], items)
      | some item => (.value item.flags item.value item.cas, items)
  | .write condition key value flags _ cas =>
      match status condition cas (items.find key) with
      | .ok => items.keep key value flags
      | refused => (.error refused.code [], items)
  | .delete key cas =>
      match status .present cas (items.find key) with
      | .ok => (.done 0, { items with find := Function.update items.find key none })
      | refused => (.error refused.code [], items)
  | .append before key value =>
      match items.find key with
      | none => (.error 5 [], items)
      | some item =>
          items.keep key (if before then value ++ item.value else item.value ++ value) item.flags
  | .touch key _ =>
      match items.find key with
      | none => (.error ResponseStatus.keyNotFound.code [], items)
      | some _ => (.done 0, items)
  | .count _ _ _ _ _ => (.error 0x81 [], items)
  | .flush _ => (.done 0, { items with find := fun _ => none })
  | .noOp => (.done 0, items)
  | .version => (.text [49], items)
  | .stats _ => (.stats [], items)

theorem keep_cases (items : Items) (key value : Bytes) (flags : UInt32) :
    (∃ small, items.keep key value flags = (.done items.nextCas,
      ⟨Function.update items.find key (some ⟨value, flags, items.nextCas, small⟩),
        items.nextCas + 1⟩)) ∨
      items.keep key value flags = (.error 3 [], items) := by
  by_cases small : value.length ≤ 2 ^ 20
  · exact .inl ⟨small, dif_pos small⟩
  · exact .inr (dif_neg small)

theorem keep_spares (items : Items) {key other : Bytes} (value : Bytes) (flags : UInt32)
    (different : other ≠ key) : (items.keep other value flags).2.find key = items.find key := by
  rcases items.keep_cases other value flags with ⟨small, kept⟩ | refused
  · rw [kept]
    exact Function.update_of_ne different.symm _ _
  · rw [refused]

theorem answers (items : Items) (operation : Operation) :
    (items.apply operation).1.Answers operation := by
  have refused : ∀ status : UInt16, status ≠ 0 → (Reply.error status []).Answers operation :=
    fun status isError => ⟨isError, by simp⟩
  cases operation with
  | get key touched =>
      simp only [apply]
      split
      · exact refused _ (by decide)
      · exact (Nat.add_le_add_left (Item.small _) 4).trans_lt (by norm_num)
  | write condition key value flags expirationSecs cas =>
      simp only [apply]
      split
      · rcases items.keep_cases key value flags with ⟨small, kept⟩ | tooLarge
        · rw [kept]
          trivial
        · rw [tooLarge]
          exact refused 3 (by decide)
      · exact refused _ (ResponseStatus.code_ne_ok ‹_›)
  | delete key cas =>
      simp only [apply]
      split
      · trivial
      · exact refused _ (ResponseStatus.code_ne_ok ‹_›)
  | append before key value =>
      simp only [apply]
      split
      · exact refused 5 (by decide)
      · rename_i item _
        rcases items.keep_cases key (if before then value ++ item.value else item.value ++ value)
          item.flags with ⟨small, kept⟩ | tooLarge
        · rw [kept]
          trivial
        · rw [tooLarge]
          exact refused 3 (by decide)
  | touch key expirationSecs =>
      simp only [apply]
      split
      · exact refused _ (by decide)
      · trivial
  | count down key delta initial expirationSecs => exact refused 0x81 (by decide)
  | version => exact (by norm_num : 1 < 2 ^ 31)
  | stats key => exact fun entry mem => absurd mem List.not_mem_nil
  | flush | noOp => trivial

/-- The items as a store. -/
def store : Store Items where
  apply := apply
  answers := answers

theorem keeps : store.Keeps fun items key => (items.find key).map fun item =>
    (item.value, item.flags) where
  reads := by
    intro items key touched value flags found
    rcases Option.map_eq_some_iff.mp found with ⟨item, isFound, same⟩
    cases same
    refine ⟨item.cas, ?_⟩
    simp only [store, apply, isFound]
  writes := by
    intro items condition key value flags expirationSecs cas fresh done
    simp only [store, apply] at done ⊢
    split
    case h_1 applies =>
      simp only [applies] at done
      rcases items.keep_cases key value flags with ⟨small, kept⟩ | tooLarge
      · simp [kept]
      · rw [tooLarge] at done
        cases done
    case h_2 isRefused =>
      split at done
      · exact absurd ‹_› isRefused
      · cases done
  spares := by
    intro items operation key spares
    apply congrArg (Option.map _)
    cases operation with
    | write condition other value flags expirationSecs cas =>
        simp only [store, apply]
        split
        · exact items.keep_spares value flags spares
        · rfl
    | delete other cas =>
        simp only [store, apply]
        split
        · exact Function.update_of_ne (Ne.symm spares) _ _
        · rfl
    | append before other value =>
        simp only [store, apply]
        split
        · rfl
        · exact items.keep_spares _ _ spares
    | get other touched =>
        simp only [store, apply]
        split <;> rfl
    | touch other expirationSecs =>
        simp only [store, apply]
        split <;> rfl
    | flush => exact spares.elim
    | _ => rfl

def empty : Items where
  find := fun _ => none
  nextCas := 1

end Items

namespace Store

/-- A key is written, counted in vain, read and deleted twice. -/
def sampleCalls : List Call :=
  [.set [107] [1, 2] 7 0 0, .increment [107] 1 0 0 false, .get [107] 0, .version,
    .deleteKey [107] 0, .deleteKey [107] 0, .get [107] 60]

theorem representable_sampleCalls : ∀ call ∈ sampleCalls, call.request.Representable := by
  decide

theorem remote_run_sample : ∃ final after,
    Machine.run Items.store.remote ⟨Items.empty, Call.bytewiseClient []⟩ sampleCalls =
      some ([.ok (.written true), .error (Call.serverError 0x81 []),
        .ok (.got ⟨[1, 2], 1, 7, true⟩), .ok (.text [49]), .ok (.written true),
        .error (Call.serverError 1 []), .ok (.got ⟨[], 0, 0, false⟩)], ⟨final, after⟩) := by
  rcases Items.store.remote_run Items.empty ⟨_, rfl, rfl, Socket.healthy_bytewise []⟩
    representable_sampleCalls with ⟨outcomes, final, after, onStore, remotely, _⟩
  cases onStore
  exact ⟨_, after, remotely⟩

end Store

end EventAsync.Memcache
