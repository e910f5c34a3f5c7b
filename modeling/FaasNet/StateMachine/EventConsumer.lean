import Mathlib.Data.List.Perm.Basic
import FaasNet.Common.ConcurrentBag
import FaasNet.StateMachine.RuntimeEngine

/-!
# Waking instances by events

`EventConsumerStore.HandleMessage`, what it reads and writes, and `StateMachineLauncher.InstanciateAndLaunch`. A call of
`HandleMessage` is a sequence of operations on what the workers share: the lock, the subscriptions and the event store.
Between two of them other calls may run. The launch within it is one step, since it works on the loaded object only.
-/

namespace FaasNet.StateMachine

open FaasNet.Lib FaasNet.Common FaasNet.Domain FaasNet.EventStore

/-! ## Subscriptions -/

/-- `CloudEventSubscriptionAggregate`. -/
structure CloudEventSubscription where
  workflowInstanceId : Option String
  stateInstanceId : Option String
  rootTopic : Option String
  source : Option String
  type : Option String
  vpn : Option String
  topic : Option String
  isConsumed : Bool := false
  deriving DecidableEq, Repr

namespace CloudEventSubscription

/-- The subscription that `EventListenedEventHandler.Process` adds. -/
def create (evt : EventListenedEvent) : CloudEventSubscription where
  workflowInstanceId := evt.aggregateId
  stateInstanceId := evt.stateInstanceId
  rootTopic := evt.rootTopic
  source := evt.source
  type := evt.type
  vpn := evt.vpn
  topic := evt.topic

/-- What the repository tells subscriptions apart by. -/
def key (s : CloudEventSubscription) : Option String × Option String × Option String × Option String :=
  (s.workflowInstanceId, s.stateInstanceId, s.source, s.type)

/-- `subscription.IsConsumed = true`. -/
def consumed (s : CloudEventSubscription) : CloudEventSubscription := { s with isConsumed := true }

@[simp] theorem key_consumed (s : CloudEventSubscription) : s.consumed.key = s.key := rfl

end CloudEventSubscription

/-- The order in which a bag yields its items, which nothing promises. -/
structure BagOrder where
  order : List CloudEventSubscription → List CloudEventSubscription
  perm : ∀ bag, (order bag).Perm bag

/-- `InMemoryCloudEventSubscriptionRepository.Update`; `none` is the exception of `First`. -/
def InMemoryCloudEventSubscriptionRepository.update (bag : BagOrder) (cloudEvents : List CloudEventSubscription)
    (evt : CloudEventSubscription) : Option (List CloudEventSubscription) :=
  ((bag.order cloudEvents).find? fun c => c.key = evt.key).map fun record => remove cloudEvents record ++ [evt]

/-! ## Messages -/

/-- What is used of a `CloudEvent`: `Data` is its text. -/
structure CloudEvent where
  type : Option String
  source : String
  data : Option String
  deriving DecidableEq, Repr

/-- A message that was read. -/
structure MessageResult where
  vpn : Option String
  content : List CloudEvent
  topicMessage : String
  deriving DecidableEq, Repr

namespace MessageResult

/-- The parts of the topic. -/
def splittedTopic (obj : MessageResult) : List (List Char) := obj.topicMessage.toList.splitOn '/'

/-- The first part of the topic. -/
def expectedRootTopic (obj : MessageResult) : String := String.ofList (obj.splittedTopic.headD [])

/-- The last part of the topic. -/
def expectedMessageTopic (obj : MessageResult) : String := String.ofList (obj.splittedTopic.getLastD [])

/-- An event of the message is what the subscription waits for. -/
def Carries (ce : CloudEvent) (s : CloudEventSubscription) : Prop := ce.type = s.type ∧ some ce.source = s.source

instance (ce : CloudEvent) (s : CloudEventSubscription) : Decidable (Carries ce s) := inferInstanceAs (Decidable (_ ∧ _))

/-- The subscription is one of `vpnSubscriptions` and of `lst`. -/
def Meets (obj : MessageResult) (s : CloudEventSubscription) : Prop :=
  (s.vpn = obj.vpn ∧ s.topic = some obj.expectedMessageTopic ∧ s.rootTopic = some obj.expectedRootTopic ∧
    s.isConsumed = false) ∧ ∃ ce ∈ obj.content, Carries ce s

instance (obj : MessageResult) (s : CloudEventSubscription) : Decidable (obj.Meets s) := inferInstanceAs (Decidable (_ ∧ _))

/-- `GroupBy(k => k.WorkflowInstanceId)`. -/
def groupByInstance (lst : List CloudEventSubscription) : List (Option String × List CloudEventSubscription) :=
  ((lst.map (·.workflowInstanceId)).eraseDups).map fun id => (id, lst.filter fun s => s.workflowInstanceId = id)

end MessageResult

/-! ## The stores -/

/-- What the workers share. Two fields are for the statements only: the instance as it was committed last, and the
subscriptions that were marked as consumed, with what `TryConsumeEvt` had answered. -/
structure WorkerStores where
  cloudEvents : List CloudEventSubscription := []
  instances : InstanceStores := {}
  committed : String → Option StateMachineInstance := fun _ => none
  marked : List (CloudEventSubscription × Bool) := []

/-- The services of a worker. -/
structure Worker (J : Type*) where
  json : RuntimeJson J
  deserializeYaml : Option String → Option StateMachineDefinition
  snapshotFrequency : Nat
  utcNow : Nat → Nat

section
variable {J : Type*} (worker : Worker J)

/-- The instance is committed, and remembered as it is. -/
def WorkerStores.commit (stores : WorkerStores) (domain : StateMachineInstanceAggregate) :
    StateMachineInstanceAggregate × WorkerStores :=
  let after := CommitAggregateHelper.commit (instanceClass worker.json.toJTokens) worker.snapshotFrequency
    worker.utcNow domain stores.instances
  (after.1, { stores with
    instances := after.2
    committed := Function.update stores.committed (after.1.state.id.getD "") (some after.1.state) })

/-! ## `InstanciateAndLaunch` -/

/-- What an instance is launched with, and what the launch reads from outside. -/
structure LaunchRequest (J : Type*) where
  definition : StateMachineDefinition
  workflowDef : WorkflowDef
  env : InstanceEnv
  stateEnvs : StateMachineDefinitionState → InstanceEnv
  input : Option J
  filters : Filters J
  processors : Processors J
  envs : Nat → VisitEnv
  fuel : Nat

/-- The stores after it, if it returns. -/
def instanciateAndLaunch (request : LaunchRequest J) (stores : WorkerStores) : Option WorkerStores :=
  match launchRoot worker.json request.filters request.processors request.definition request.envs request.fuel
      (instanciate worker.json request.definition request.env request.workflowDef request.stateEnvs) request.input with
  | some (workflowInstance, .ok ()) =>
    let processed := { stores with
      cloudEvents := stores.cloudEvents ++ workflowInstance.integrationEvents.map CloudEventSubscription.create }
    some (processed.commit worker workflowInstance).2
  | _ => none

/-! ## `HandleMessage` -/

/-- What the handling of one subscription reads from outside. -/
structure ConsumeEnv (J : Type*) where
  env : InstanceEnv
  filters : Filters J
  processors : Processors J
  envs : Nat → VisitEnv
  fuel : Nat

/-- A message and what its handling reads from outside. -/
structure Delivery (J : Type*) where
  message : MessageResult
  bag : BagOrder
  envs : CloudEventSubscription → ConsumeEnv J

/-- Where a call is, with its local variables: `lst` not yet gone through, and what has been. -/
inductive Phase where
  | query
  | load (lst : List (Option String × List CloudEventSubscription)) (handled : List CloudEventSubscription)
  | consume (stateMachineDef : StateMachineDefinition) (stateMachineInstance : StateMachineInstanceAggregate)
      (kvp : List CloudEventSubscription) (lst : List (Option String × List CloudEventSubscription))
      (handled : List CloudEventSubscription)
  | update (evts : List CloudEventSubscription)
  /-- The `finally` block, and whether it was come to without an exception. -/
  | release (completed : Bool)

variable (delivery : Delivery J)

/-- `Get` for the instance of a group. -/
def loadInstance (stores : WorkerStores) (lst : List (Option String × List CloudEventSubscription))
    (handled : List CloudEventSubscription) (id : Option String) (kvp : List CloudEventSubscription) : Phase :=
  match CommitAggregateHelper.get (instanceClass worker.json.toJTokens) (id.getD "") stores.instances with
  | .error _ => .release false
  | .ok stateMachineInstance =>
    if isNullOrWhiteSpace stateMachineInstance.state.id then .load lst (handled ++ kvp)
    else
      match worker.deserializeYaml (stateMachineInstance.state.workflowDef.bind (·.serializedDefinition)) with
      | none => .release false
      | some stateMachineDef => .consume stateMachineDef stateMachineInstance kvp lst handled

/-- `JObject.Parse(firstMsg.Data.ToString())`. -/
def Delivery.parse (subscription : CloudEventSubscription) : Option J :=
  (delivery.message.content.find? fun ce => decide (MessageResult.Carries ce subscription)).bind fun firstMsg =>
    firstMsg.data.bind worker.json.parseObject

/-- `TryConsumeEvt`, and if the event is accepted `Launch` and `Commit`. The result is `none` where the launch does not
return. -/
def consumeSubscription (stores : WorkerStores) (stateMachineDef : StateMachineDefinition)
    (stateMachineInstance : StateMachineInstanceAggregate) (subscription : CloudEventSubscription) :
    Option (Except InstanceException (WorkerStores × StateMachineInstanceAggregate)) :=
  match delivery.parse worker subscription with
  | none => some (.error .jsonReaderException)
  | some jObj =>
    let env := delivery.envs subscription
    match StateMachineInstanceAggregate.tryConsumeEvt worker.json.toJTokens stateMachineInstance env.env
        subscription.stateInstanceId subscription.source subscription.type (some (worker.json.toText jObj)) with
    | (_, .error e) => some (.error e)
    | (stateMachineInstance, .ok false) =>
      some (.ok ({ stores with marked := stores.marked ++ [(subscription, false)] }, stateMachineInstance))
    | (stateMachineInstance, .ok true) =>
      match launch worker.json env.filters env.processors stateMachineDef env.envs env.fuel stateMachineInstance
          (some jObj) subscription.stateInstanceId with
      | none => none
      | some (_, .error e) => some (.error e)
      | some (stateMachineInstance, .ok ()) =>
        let (stateMachineInstance, stores) := stores.commit worker stateMachineInstance
        some (.ok ({ stores with marked := stores.marked ++ [(subscription, true)] }, stateMachineInstance))

/-- One operation of a call that has the lock. -/
def advance (stores : WorkerStores) : Phase → Option (WorkerStores × Phase)
  | .query =>
    if delivery.message.content = [] then some (stores, .release false)
    else some (stores, .load (MessageResult.groupByInstance
      ((delivery.bag.order stores.cloudEvents).filter fun s => decide (delivery.message.Meets s))) [])
  | .load [] handled => some (stores, .update handled)
  | .load ((id, kvp) :: lst) handled => some (stores, loadInstance worker stores lst handled id kvp)
  | .consume _ _ [] lst handled => some (stores, .load lst handled)
  | .consume stateMachineDef stateMachineInstance (subscription :: kvp) lst handled =>
    (consumeSubscription worker delivery stores stateMachineDef stateMachineInstance subscription).map fun
      | .error _ => (stores, .release false)
      | .ok (stores, stateMachineInstance) =>
        (stores, .consume stateMachineDef stateMachineInstance kvp lst (handled ++ [subscription.consumed]))
  | .update [] => some (stores, .release true)
  | .update (evt :: evts) =>
    match InMemoryCloudEventSubscriptionRepository.update delivery.bag stores.cloudEvents evt with
    | none => some (stores, .release false)
    | some cloudEvents => some ({ stores with cloudEvents }, .update evts)
  | .release _ => none

end

/-! ## Calls side by side -/

/-- `"externalevts"`, the name of the lock. -/
def externalevts : String := "externalevts"

/-- Where a call is: before it adds the lock that it found free, or with the lock. -/
inductive CallState where
  | locking
  | locked (phase : Phase)

/-- A call in flight; `met` are the subscriptions that its message met when it was delivered. -/
structure HandleCall (J : Type*) where
  delivery : Delivery J
  met : List CloudEventSubscription
  state : CallState

/-- What the workers share, and the calls in flight. Two fields are for the statements only: the messages that were
delivered, and the subscriptions that one of them met when it was delivered, unless its handling has thrown. -/
structure Consumers (J : Type*) where
  stores : WorkerStores
  locks : List String := []
  calls : List (HandleCall J) := []
  delivered : List (Delivery J) := []
  owed : List CloudEventSubscription := []

/-- The beginning of a call of `HandleMessage`, or the next operation of one. -/
inductive ConsumerAction (J : Type*) where
  | deliver (delivery : Delivery J)
  | next (k : Nat)

namespace Consumers

section
variable {J : Type*} (worker : Worker J)

/-- The subscriptions that a message meets. -/
def met (s : Consumers J) (delivery : Delivery J) : List CloudEventSubscription :=
  s.stores.cloudEvents.filter fun c => decide (delivery.message.Meets c)

/-- The next operation of a call: `_locks.Add`, an operation with the lock, or `ReleaseLock`. -/
def advanceCall (s : Consumers J) (k : Nat) (call : HandleCall J) : Option (Consumers J) :=
  match call.state with
  | .locking =>
    some { s with locks := externalevts :: s.locks, calls := s.calls.set k { call with state := .locked .query } }
  | .locked (.release completed) =>
    some { s with
      locks := remove s.locks externalevts
      calls := s.calls.eraseIdx k
      owed := if completed then s.owed ++ call.met else s.owed }
  | .locked phase =>
    (advance worker call.delivery s.stores phase).map fun (stores, phase) =>
      { s with stores, calls := s.calls.set k { call with state := .locked phase } }

/-- A message is delivered, or a call goes on. -/
def step (s : Consumers J) : ConsumerAction J → Option (Consumers J)
  | .deliver delivery =>
    let s' := { s with delivered := s.delivered ++ [delivery] }
    if externalevts ∈ s.locks then
      -- `TryAcquireLock` returns false, and the message is dropped
      some { s' with owed := s.owed ++ s.met delivery }
    else some { s' with calls := s.calls ++ [⟨delivery, s.met delivery, .locking⟩] }
  | .next k => s.calls[k]?.bind (s.advanceCall worker k)

end

end Consumers

end FaasNet.StateMachine
