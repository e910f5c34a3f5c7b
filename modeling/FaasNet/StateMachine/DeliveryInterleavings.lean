import FaasNet.Lib.Runs
import FaasNet.StateMachine.EventConsumer
import FaasNet.StateMachine.LaunchTermination

/-!
# Messages that are delivered side by side

`HandleMessage` tries to take the lock and does nothing with its message if another call has it; and since
`TryAcquireLock` looks for the lock before it adds it, two calls may both take it. Messages that are handled one
after the other are all handled, and each consumes the subscriptions that it meets.
-/

namespace FaasNet.StateMachine

open FaasNet.Lib FaasNet.Common FaasNet.EventStore

/-! ## The sequential order -/

section
variable {J : Type*} (worker : Worker J)

/-- One operation of a call that is alone. -/
def Advances (delivery : Delivery J) (before after : WorkerStores × Phase) : Prop :=
  advance worker delivery before.1 before.2 = some after

/-- A message is handled, by itself and to its end. -/
def Handled (delivery : Delivery J) (before after : WorkerStores) : Prop :=
  ∃ completed, Relation.ReflTransGen (Advances worker delivery) (before, .query) (after, .release completed)

/-- Messages are handled one after the other. -/
inductive Sequential (start : WorkerStores) : List (Delivery J) → WorkerStores → Prop
  | nil : Sequential start [] start
  | snoc {deliveries : List (Delivery J)} {before after : WorkerStores} {delivery : Delivery J}
      (earlier : Sequential start deliveries before) (handled : Handled worker delivery before after) :
      Sequential start (deliveries ++ [delivery]) after

/-- Once no call is in flight, the stores are as after some sequential order of all the messages, and the subscriptions
that a message met when it was delivered are consumed. -/
def AsSequential (start : WorkerStores) (s : Consumers J) : Prop :=
  s.calls = [] →
    (∃ order, order.Perm s.delivered ∧ Sequential worker start order s.stores) ∧
      ∀ c ∈ s.owed, c ∉ s.stores.cloudEvents ∧ c.consumed ∈ s.stores.cloudEvents

/-- The instance of the group that is loaded next, if it can be loaded, has an id. -/
def loadsInstance (stores : WorkerStores) : CallState → Bool
  | .locked (.load ((id, _) :: _) _) =>
    match CommitAggregateHelper.get (instanceClass worker.json.toJTokens) (id.getD "") stores.instances with
    | .error _ => true
    | .ok loaded => !isNullOrWhiteSpace loaded.state.id
  | _ => true

/-- A message is delivered while no call is in flight, the repository can tell its subscriptions apart, and the
instances of the subscriptions are there. -/
def Alone (s : Consumers J) : ConsumerAction J → Prop
  | .deliver _ => s.calls = [] ∧ (s.stores.cloudEvents.map (·.key)).Nodup
  | .next k => s.calls[k]?.all fun call => loadsInstance worker s.stores call.state

instance (s : Consumers J) (a : ConsumerAction J) : Decidable (Alone worker s a) :=
  match a with
  | .deliver _ => inferInstanceAs (Decidable (_ ∧ _))
  | .next _ => inferInstanceAs (Decidable (_ = true))

end

/-! ## The repository -/

section
variable {cloudEvents after : List CloudEventSubscription} {evt c : CloudEventSubscription} {bag : BagOrder}

/-- The one subscription with the key is replaced. -/
theorem update_spec (distinct : (cloudEvents.map (·.key)).Nodup)
    (updated : InMemoryCloudEventSubscriptionRepository.update bag cloudEvents evt = some after) :
    (after.map (·.key)).Perm (cloudEvents.map (·.key)) ∧
      ∀ c, c ∈ after ↔ c = evt ∨ (c ∈ cloudEvents ∧ c.key ≠ evt.key) := by
  obtain ⟨record, found, rfl⟩ := Option.map_eq_some_iff.mp updated
  have same : record.key = evt.key := by simpa using List.find?_some found
  have member : record ∈ cloudEvents := (bag.perm cloudEvents).mem_iff.mp (List.mem_of_find?_eq_some found)
  have removed := remove_perm cloudEvents record
  constructor
  · rw [List.map_append, List.map_singleton, ← same]
    have keys := (List.perm_append_singleton record.key ((remove cloudEvents record).map (·.key)))
    refine keys.trans ?_
    exact (remove_cons_perm member).map (·.key)
  · intro c
    have nodup : cloudEvents.Nodup := distinct.of_map
    rw [List.mem_append, List.mem_singleton, removed.mem_iff, nodup.mem_erase_iff]
    constructor
    · rintro (⟨other, inside⟩ | rfl)
      · refine .inr ⟨inside, fun sameKey => other ?_⟩
        exact List.inj_on_of_nodup_map distinct inside member (sameKey.trans same.symm)
      · exact .inl rfl
    · rintro (rfl | ⟨inside, apart⟩)
      · exact .inr rfl
      · exact .inl ⟨fun here => apart (here ▸ same), inside⟩

end

theorem mem_groupByInstance {lst : List CloudEventSubscription} {c : CloudEventSubscription} :
    c ∈ (MessageResult.groupByInstance lst).flatMap (·.2) ↔ c ∈ lst := by
  simp only [MessageResult.groupByInstance, List.mem_flatMap, List.mem_map, List.mem_eraseDups]
  constructor
  · rintro ⟨-, ⟨id, -, rfl⟩, inside⟩
    exact List.mem_of_mem_filter inside
  · intro inside
    exact ⟨_, ⟨c.workflowInstanceId, ⟨c, inside, rfl⟩, rfl⟩, by simpa using inside⟩

/-! ## One call -/

section
variable (obj : MessageResult) (start : List CloudEventSubscription)

/-- What a call does to the subscriptions at any moment: those that its message does not meet stay, and nothing is
added but consumed ones. -/
structure Keeps (cloudEvents : List CloudEventSubscription) : Prop where
  distinct : (cloudEvents.map (·.key)).Nodup
  stay : ∀ c ∈ start, ¬ obj.Meets c → c ∈ cloudEvents
  new : ∀ c ∈ cloudEvents, c ∈ start ∨ c.isConsumed

/-- The subscriptions that the message meets were handled or are still to come. -/
structure Covers (handled rest : List CloudEventSubscription) : Prop where
  covered : ∀ c ∈ start, obj.Meets c → c.consumed ∈ handled ∨ c ∈ rest
  handled : ∀ e ∈ handled, ∃ c ∈ start, obj.Meets c ∧ e = c.consumed
  rest : ∀ c ∈ rest, c ∈ start ∧ obj.Meets c

/-- They are written as consumed or still to be written. -/
structure Marks (cloudEvents evts : List CloudEventSubscription) : Prop where
  keeps : Keeps obj start cloudEvents
  written : ∀ c ∈ start, obj.Meets c → c.consumed ∈ evts ∨ (c.consumed ∈ cloudEvents ∧ c ∉ cloudEvents)
  evts : ∀ e ∈ evts, ∃ c ∈ start, obj.Meets c ∧ e = c.consumed

/-- How far a call is. -/
def Progress (cloudEvents : List CloudEventSubscription) : Phase → Prop
  | .query => cloudEvents = start
  | .load lst handled => cloudEvents = start ∧ Covers obj start handled (lst.flatMap (·.2))
  | .consume _ _ kvp lst handled => cloudEvents = start ∧ Covers obj start handled (kvp ++ lst.flatMap (·.2))
  | .update evts => Marks obj start cloudEvents evts
  | .release true => Marks obj start cloudEvents []
  | .release false => Keeps obj start cloudEvents

end

section
variable {obj : MessageResult} {start cloudEvents after : List CloudEventSubscription}

theorem Keeps.refl (distinct : (start.map (·.key)).Nodup) : Keeps obj start start :=
  ⟨distinct, fun _ inside _ => inside, fun _ inside => .inl inside⟩

theorem ne_consumed {c d : CloudEventSubscription} (meets : obj.Meets c) : c ≠ d.consumed := by
  rintro rfl
  exact Bool.noConfusion meets.1.2.2.2

theorem Covers.marks {handled : List CloudEventSubscription} (distinct : (start.map (·.key)).Nodup)
    (covers : Covers obj start handled []) : Marks obj start start handled :=
  ⟨.refl distinct, fun c inside meets => .inl ((covers.covered c inside meets).resolve_right (by simp)), covers.handled⟩

theorem Covers.consume {handled rest : List CloudEventSubscription} {c : CloudEventSubscription}
    (covers : Covers obj start handled (c :: rest)) : Covers obj start (handled ++ [c.consumed]) rest := by
  obtain ⟨here, meets⟩ := covers.rest c List.mem_cons_self
  refine ⟨fun d inside met => ?_, fun e listed => ?_, fun d listed => covers.rest d (List.mem_cons_of_mem c listed)⟩
  · rcases covers.covered d inside met with before | todo
    · exact .inl (List.mem_append_left _ before)
    · rcases List.mem_cons.mp todo with rfl | later
      · exact .inl (by simp)
      · exact .inr later
  · rcases List.mem_append.mp listed with before | last
    · exact covers.handled e before
    · exact ⟨c, here, meets, List.mem_singleton.mp last⟩

theorem Marks.update {bag : BagOrder} {evt : CloudEventSubscription} {evts : List CloudEventSubscription}
    (startDistinct : (start.map (·.key)).Nodup) (marks : Marks obj start cloudEvents (evt :: evts))
    (updated : InMemoryCloudEventSubscriptionRepository.update bag cloudEvents evt = some after) :
    Marks obj start after evts := by
  obtain ⟨keys, members⟩ := update_spec marks.keeps.distinct updated
  obtain ⟨c, inside, meets, rfl⟩ := marks.evts evt List.mem_cons_self
  have apart {d : CloudEventSubscription} (there : d ∈ start) (other : d ≠ c) : d.key ≠ c.key :=
    fun same => other (List.inj_on_of_nodup_map startDistinct there inside same)
  refine ⟨⟨keys.nodup_iff.mpr marks.keeps.distinct, fun d there misses => ?_, fun d there => ?_⟩, fun d there met => ?_,
    fun e listed => marks.evts e (List.mem_cons_of_mem _ listed)⟩
  · refine (members d).mpr (.inr ⟨marks.keeps.stay d there misses, apart there ?_⟩)
    rintro rfl
    exact misses meets
  · rcases (members d).mp there with rfl | ⟨old, -⟩
    · exact .inr rfl
    · exact marks.keeps.new d old
  · by_cases here : d = c
    · subst here
      refine .inr ⟨(members _).mpr (.inl rfl), fun left => ?_⟩
      rcases (members d).mp left with same | ⟨-, other⟩
      · exact ne_consumed meets same
      · exact other rfl
    · have other : d.key ≠ c.key := apart there here
      rcases marks.written d there met with listed | ⟨done, gone⟩
      · rcases List.mem_cons.mp listed with same | later
        · exact absurd (congrArg CloudEventSubscription.key same) other
        · exact .inl later
      · refine .inr ⟨(members _).mpr (.inr ⟨done, other⟩), fun left => ?_⟩
        rcases (members d).mp left with same | ⟨old, -⟩
        · exact ne_consumed met same
        · exact gone old

end

section
variable {J : Type*} {worker : Worker J} {delivery : Delivery J} {stores after : WorkerStores}
  {start : List CloudEventSubscription}

/-- The handling of a subscription writes none. -/
theorem cloudEvents_consumeSubscription {stateMachineDef : StateMachineDefinition}
    {stateMachineInstance loaded : StateMachineInstanceAggregate} {c : CloudEventSubscription}
    (consumed : consumeSubscription worker delivery stores stateMachineDef stateMachineInstance c =
      some (.ok (after, loaded))) : after.cloudEvents = stores.cloudEvents := by
  unfold consumeSubscription at consumed
  split at consumed
  · cases consumed
  dsimp only at consumed
  split at consumed
  · cases consumed
  · cases consumed
    rfl
  · split at consumed
    · cases consumed
    · cases consumed
    · cases consumed
      rfl

theorem advance_progress {phase phase' : Phase} (distinct : (start.map (·.key)).Nodup)
    (loads : loadsInstance worker stores (.locked phase)) (advanced : advance worker delivery stores phase = some (after, phase'))
    (progress : Progress delivery.message start stores.cloudEvents phase) :
    Progress delivery.message start after.cloudEvents phase' := by
  cases phase with
  | query =>
    obtain rfl : stores.cloudEvents = start := progress
    simp only [advance] at advanced
    split at advanced
    · cases advanced
      exact .refl distinct
    · cases advanced
      have met (c : CloudEventSubscription) :
          c ∈ (MessageResult.groupByInstance ((delivery.bag.order stores.cloudEvents).filter
            fun s => decide (delivery.message.Meets s))).flatMap (·.2) ↔
          c ∈ stores.cloudEvents ∧ delivery.message.Meets c := by
        rw [mem_groupByInstance, List.mem_filter, (delivery.bag.perm _).mem_iff, decide_eq_true_iff]
      exact ⟨rfl, fun c inside meets => .inr ((met c).mpr ⟨inside, meets⟩), nofun, fun c inside => (met c).mp inside⟩
  | load lst handled =>
    obtain ⟨rfl, covers⟩ := progress
    cases lst with
    | nil =>
      cases advanced
      exact covers.marks distinct
    | cons group lst =>
      obtain ⟨id, kvp⟩ := group
      simp only [advance, loadInstance] at advanced
      split at advanced
      · cases advanced
        exact .refl distinct
      next loaded found =>
        have known : isNullOrWhiteSpace loaded.state.id = false := by
          simpa [loadsInstance, found] using loads
        rw [known] at advanced
        simp only [Bool.false_eq_true, if_false] at advanced
        split at advanced
        · cases advanced
          exact .refl distinct
        · cases advanced
          exact ⟨rfl, covers⟩
  | consume stateMachineDef stateMachineInstance kvp lst handled =>
    obtain ⟨same, covers⟩ := progress
    cases kvp with
    | nil =>
      cases advanced
      exact ⟨same, covers⟩
    | cons c kvp =>
      simp only [advance] at advanced
      obtain ⟨result, consumed, result_eq⟩ := Option.map_eq_some_iff.mp advanced
      cases result with
      | error e =>
        cases result_eq
        rw [same]
        exact .refl distinct
      | ok loaded =>
        cases result_eq
        exact ⟨(cloudEvents_consumeSubscription consumed).trans same, covers.consume⟩
  | update evts =>
    cases evts with
    | nil =>
      cases advanced
      exact progress
    | cons evt evts =>
      simp only [advance] at advanced
      split at advanced
      · cases advanced
        exact progress.keeps
      next cloudEvents updated =>
        cases advanced
        exact progress.update distinct updated
  | release completed => cases advanced

theorem Progress.keeps {cloudEvents : List CloudEventSubscription} {obj : MessageResult}
    {completed : Bool} (progress : Progress obj start cloudEvents (.release completed)) : Keeps obj start cloudEvents := by
  cases completed with
  | false => exact progress
  | true => exact Marks.keeps progress

end

/-! ## Runs -/

section
variable {J : Type*} {worker : Worker J} {start : WorkerStores} {s t : Consumers J}

/-- The subscriptions owed so far are consumed. -/
def Paid (owed cloudEvents : List CloudEventSubscription) : Prop :=
  ∀ c ∈ owed, c.isConsumed = false ∧ c ∉ cloudEvents ∧ c.consumed ∈ cloudEvents

/-- A call leaves the subscriptions alone that were consumed before it. -/
theorem Paid.keeps {owed before after : List CloudEventSubscription} {obj : MessageResult} (paid : Paid owed before)
    (keeps : Keeps obj before after) : Paid owed after := by
  intro c listed
  obtain ⟨unconsumed, gone, done⟩ := paid c listed
  refine ⟨unconsumed, fun inside => ?_, keeps.stay _ done fun meets => ne_consumed meets rfl⟩
  rcases keeps.new c inside with there | consumed
  · exact gone there
  · rw [unconsumed] at consumed
    cases consumed

/-- The one call in flight, and what was there when its message was delivered. -/
structure Serving (worker : Worker J) (start : WorkerStores) (s : Consumers J) (call : HandleCall J)
    (deliveries : List (Delivery J)) (before : WorkerStores) : Prop where
  calls : s.calls = [call]
  delivered : s.delivered = deliveries ++ [call.delivery]
  earlier : Sequential worker start deliveries before
  paid : Paid s.owed before.cloudEvents
  distinct : (before.cloudEvents.map (·.key)).Nodup
  met : ∀ c ∈ call.met, c ∈ before.cloudEvents ∧ call.delivery.message.Meets c

theorem Serving.turn {call : HandleCall J} {deliveries : List (Delivery J)} {before : WorkerStores}
    (serving : Serving worker start s call deliveries before) (state : CallState)
    (calls : t.calls = s.calls.set 0 { call with state }) (delivered : t.delivered = s.delivered)
    (owed : t.owed = s.owed) : Serving worker start t { call with state } deliveries before := by
  refine ⟨?_, delivered.trans serving.delivered, serving.earlier, ?_, serving.distinct, serving.met⟩
  · rw [calls, serving.calls]
    rfl
  · rw [owed]
    exact serving.paid

/-- What holds while messages are delivered one at a time. -/
inductive Serial (worker : Worker J) (start : WorkerStores) (s : Consumers J) : Prop
  | idle (calls : s.calls = []) (locks : s.locks = []) (sequential : Sequential worker start s.delivered s.stores)
      (paid : Paid s.owed s.stores.cloudEvents)
  | locking {call : HandleCall J} {deliveries : List (Delivery J)}
      (serving : Serving worker start s call deliveries s.stores) (state : call.state = .locking) (locks : s.locks = [])
  | locked {call : HandleCall J} {deliveries : List (Delivery J)} {before : WorkerStores} {phase : Phase}
      (serving : Serving worker start s call deliveries before) (state : call.state = .locked phase)
      (locks : s.locks = [externalevts])
      (reached : Relation.ReflTransGen (Advances worker call.delivery) (before, .query) (s.stores, phase))
      (progress : Progress call.delivery.message before.cloudEvents s.stores.cloudEvents phase)

theorem Serial.asSequential (serial : Serial worker start s) : AsSequential worker start s := by
  intro noCalls
  cases serial with
  | idle calls locks sequential paid => exact ⟨⟨_, .refl _, sequential⟩, fun c owed => (paid c owed).2⟩
  | locking serving =>
    rw [serving.calls] at noCalls
    cases noCalls
  | locked serving =>
    rw [serving.calls] at noCalls
    cases noCalls

theorem Serial.deliver {delivery : Delivery J} (serial : Serial worker start s) (alone : Alone worker s (.deliver delivery))
    (taken : s.step worker (.deliver delivery) = some t) : Serial worker start t := by
  obtain ⟨noCalls, distinct⟩ := alone
  cases serial with
  | idle calls locks sequential paid =>
    have free : externalevts ∉ s.locks := by simp [locks]
    simp only [Consumers.step, free, if_false, Option.some_inj] at taken
    subst taken
    have call : Serving worker start { s with
        delivered := s.delivered ++ [delivery], calls := s.calls ++ [⟨delivery, s.met delivery, .locking⟩] }
        ⟨delivery, s.met delivery, .locking⟩ s.delivered s.stores :=
      ⟨by simp [noCalls], rfl, sequential, paid, distinct, fun c listed => by simpa [Consumers.met] using listed⟩
    exact .locking call rfl locks
  | locking serving =>
    rw [serving.calls] at noCalls
    cases noCalls
  | locked serving =>
    rw [serving.calls] at noCalls
    cases noCalls

theorem advanceCall_locked {k : Nat} {call : HandleCall J} {phase : Phase} (state : call.state = .locked phase)
    (goes : ¬ ∃ completed, phase = .release completed) :
    s.advanceCall worker k call = (advance worker call.delivery s.stores phase).map fun (stores, phase) =>
      { s with stores, calls := s.calls.set k { call with state := .locked phase } } := by
  unfold Consumers.advanceCall
  rw [state]
  cases phase with
  | release completed => exact absurd ⟨completed, rfl⟩ goes
  | _ => rfl

theorem Serial.next {k : Nat} (serial : Serial worker start s) (alone : Alone worker s (.next k))
    (taken : s.step worker (.next k) = some t) : Serial worker start t := by
  obtain ⟨call, found, advanced⟩ := Option.bind_eq_some_iff.mp taken
  cases serial with
  | idle calls locks sequential paid =>
    rw [calls] at found
    cases found
  | @locking call' deliveries serving state locks =>
    rw [serving.calls] at found
    obtain ⟨rfl, rfl⟩ : k = 0 ∧ call' = call := by
      cases k with
      | zero => exact ⟨rfl, Option.some.inj found⟩
      | succ k => cases found
    simp only [Consumers.advanceCall, state, Option.some_inj] at advanced
    subst advanced
    exact .locked (serving.turn (.locked .query) rfl rfl rfl) rfl (by simp [locks]) .refl rfl
  | @locked call' deliveries before phase serving state locks reached progress =>
    obtain ⟨rfl, rfl⟩ : k = 0 ∧ call' = call := by
      rw [serving.calls] at found
      cases k with
      | zero => exact ⟨rfl, Option.some.inj found⟩
      | succ k => cases found
    have loads : loadsInstance worker s.stores (.locked phase) := by
      rw [Alone, found, Option.all_some, state] at alone
      exact alone
    by_cases ends : ∃ completed, phase = .release completed
    · obtain ⟨completed, rfl⟩ := ends
      simp only [Consumers.advanceCall, state, Option.some_inj] at advanced
      subst advanced
      have sequential : Sequential worker start s.delivered s.stores := by
        rw [serving.delivered]
        exact .snoc serving.earlier ⟨completed, reached⟩
      have paid := serving.paid.keeps progress.keeps
      refine .idle (by simp [serving.calls]) (by simp [locks, remove, removeLoop]) sequential ?_
      cases completed with
      | false => exact paid
      | true =>
        -- the message has consumed the subscriptions that it met
        intro c listed
        rcases List.mem_append.mp listed with earlier | here
        · exact paid c earlier
        · obtain ⟨inside, meets⟩ := serving.met c here
          exact ⟨meets.1.2.2.2, ((Marks.written progress c inside meets).resolve_left (by simp)).symm⟩
    · rw [advanceCall_locked state ends] at advanced
      obtain ⟨⟨after, phase'⟩, advances, rfl⟩ := Option.map_eq_some_iff.mp advanced
      exact .locked (serving.turn (.locked phase') rfl rfl rfl) rfl locks (reached.tail advances)
        (advance_progress serving.distinct loads advances progress)

/-- **Messages that are delivered one at a time are handled as in a sequential order.** In a run in which no message is
delivered while a call is in flight, none is lost. -/
theorem deliveries_sequential (worker : Worker J) (start : WorkerStores) (actions : List (ConsumerAction J))
    (alone : Along (Consumers.step worker) (Alone worker) { stores := start } actions) :
    Always (Consumers.step worker) (AsSequential worker start) { stores := start } actions := by
  have idle : Serial worker start { stores := start } := .idle rfl rfl .nil nofun
  have serial : Always (Consumers.step worker) (Serial worker start) { stores := start } actions := by
    refine always_of_along (fun s a t serial alone taken => ?_) idle alone
    cases a with
    | deliver delivery => exact serial.deliver alone taken
    | next k => exact serial.next alone taken
  exact serial.imp fun s => Serial.asSequential

end

/-! ## An instance that waits for an event -/

/-- Processors that wait for an event with the name and the type of the state, and then go on as its first flow says. -/
def awaiting : Processors Unit := fun _ d s aggregate =>
  let env : InstanceEnv := ⟨"", "", 0⟩
  let listening := (StateMachineInstanceAggregate.listenEvt emptyObjects.toJTokens aggregate env (some s.id) (some d.id)
    (some "source") (some d.id) (some "topic")).1
  if ((listening.state.getState (some s.id)).bind (·.tryGetEvent (some d.id))).any (·.state = .CONSUMED) then
    ((StateMachineInstanceAggregate.processEvent emptyObjects.toJTokens listening env (some s.id) (some d.id)
      (some "\x7b\x7d")).1, match d.flows.head? with
        | none => .block
        | some flow => if flow.isEnd then .end (some ()) else .next (some ()) flow.transition)
  else (listening, .block)

/-- One event state, which ends. -/
def oneEvent : StateMachineDefinition where
  states := [⟨"order", .Event, none, none, [⟨true, none⟩]⟩]
  root := "order"
  distinct := by decide
  rooted := by decide
  closed := by decide

/-- A worker whose instances have this definition. -/
def workerOf (definition : StateMachineDefinition) : Worker Unit where
  json := emptyObjects
  deserializeYaml := fun _ => some definition
  snapshotFrequency := 1
  utcNow := id

def requestOf (definition : StateMachineDefinition) : LaunchRequest Unit where
  definition
  workflowDef := ⟨none, none, none, none, 0, some "vpn", some "root", some "yaml"⟩
  env := ⟨"", "instance", 0⟩
  stateEnvs := fun d => ⟨"", d.id, 0⟩
  input := some ()
  filters := noFilters
  processors := awaiting
  envs := fun _ => ⟨⟨"", "", 0⟩, ⟨"", "", 0⟩, ⟨"", "", 0⟩, ⟨"", "", 0⟩⟩
  fuel := 3

/-- A message with an event of some type on some topic. -/
def messageOf (type topicMessage : String) : Delivery Unit where
  message := ⟨some "vpn", [⟨some type, "source", some "\x7b\x7d"⟩], topicMessage⟩
  bag := ⟨id, fun _ => .refl _⟩
  envs := fun _ => ⟨⟨"", "", 0⟩, noFilters, awaiting, fun _ => ⟨⟨"", "", 0⟩, ⟨"", "", 0⟩, ⟨"", "", 0⟩, ⟨"", "", 0⟩⟩, 3⟩

/-- The stores after an instance was launched. -/
def launchedStores : WorkerStores := (instanciateAndLaunch (workerOf oneEvent) (requestOf oneEvent) {}).getD {}

/-- The subscription of the instance. -/
def orderSubscription : CloudEventSubscription :=
  ⟨some "instance", some "order", some "root", some "source", some "order", some "vpn", some "topic", false⟩

/-- A message is delivered and handled to its end. -/
def oneAfterTheOther : List (ConsumerAction Unit) :=
  [.deliver (messageOf "order" "root/topic"), .next 0, .next 0, .next 0, .next 0, .next 0, .next 0, .next 0, .next 0,
    .next 0, .deliver (messageOf "order" "root/topic")]

/-- The instance is woken and its subscription consumed. -/
theorem deliveries_sequential_oneAfterTheOther :
    Along (Consumers.step (workerOf oneEvent)) (Alone (workerOf oneEvent)) { stores := launchedStores } oneAfterTheOther ∧
      Always (Consumers.step (workerOf oneEvent)) (AsSequential (workerOf oneEvent) launchedStores)
        { stores := launchedStores } oneAfterTheOther ∧
      ∃ t, run (Consumers.step (workerOf oneEvent)) { stores := launchedStores } (oneAfterTheOther.dropLast) = some t ∧
        t.calls = [] ∧ t.owed = [orderSubscription] := by
  have alone : Along (Consumers.step (workerOf oneEvent)) (Alone (workerOf oneEvent)) { stores := launchedStores }
      oneAfterTheOther := by decide
  exact ⟨alone, deliveries_sequential _ _ _ alone, run_checked (by decide)⟩

/-- A message that no subscription waits for has the lock when the one for the instance is delivered. -/
def sideBySide : List (ConsumerAction Unit) :=
  [.deliver (messageOf "other" "root/other"), .next 0, .deliver (messageOf "order" "root/topic"), .next 0, .next 0, .next 0,
    .next 0]

/-- The event is lost, though the instance waits for it. -/
theorem deliveries_not_sequential_sideBySide :
    ¬ ∀ (worker : Worker Unit) (start : WorkerStores) (actions : List (ConsumerAction Unit)),
      Always (Consumers.step worker) (AsSequential worker start) { stores := start } actions := by
  intro always
  obtain ⟨t, reached, idle, owed, unconsumed⟩ : ∃ t,
      run (Consumers.step (workerOf oneEvent)) { stores := launchedStores } sideBySide = some t ∧
        t.calls = [] ∧ orderSubscription ∈ t.owed ∧ orderSubscription ∈ t.stores.cloudEvents := run_checked (by decide)
  have sequential := (always (workerOf oneEvent) launchedStores sideBySide).reached reached idle
  exact (sequential.2 orderSubscription owed).1 unconsumed

end FaasNet.StateMachine
