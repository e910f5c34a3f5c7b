import FaasNet.Lib.EventSourcing
import FaasNet.Lib.Ranked
import FaasNet.Lib.Runs
import FaasNet.Common.AggregateRoot
import FaasNet.Common.Text

/-!
# An instance of a state machine

`StateMachineInstanceAggregate`: its domain events, the handler of each, and the commands that make them.
A method mutates the aggregate and may throw after it has, so its result is the aggregate as it is left
and the outcome. A text that may be null is an `Option String`, a `DateTime` is its ticks. Tokens are those
of a library: all that is used of it is the text of a token, the reading of a text, and the JSON of the domain events.
-/

namespace FaasNet.StateMachine

open FaasNet.Lib FaasNet.Common FaasNet.Domain

/-- The ticks of a `DateTime`. -/
abbrev DateTime := Nat

/-! ## The data -/

/-- What has become of an instance. -/
inductive StateMachineInstanceStatus where
  | ACTIVE
  | TERMINATE
  | FAILED
  deriving DecidableEq, Repr

/-- What has become of a state. -/
inductive StateMachineInstanceStateStatus where
  | CREATE
  | ACTIVE
  | PENDING
  | COMPLETE
  | ERROR
  deriving DecidableEq, Repr

/-- What has become of an event. -/
inductive StateMachineInstanceStateEventStates where
  | CREATED
  | CONSUMED
  | PROCESSED
  deriving DecidableEq, Repr

/-- `StateMachineInstanceHistory`, and with `Data` `StateMachineInstanceStateHistory`. -/
structure History (Status : Type) where
  status : Status
  startDateTime : DateTime
  endDateTime : Option DateTime := none
  data : Option String := none
  deriving DecidableEq, Repr

/-- An event that a state listens to. -/
structure StateMachineInstanceStateEvent where
  name : Option String
  source : Option String
  type : Option String
  topic : Option String
  state : StateMachineInstanceStateEventStates := .CREATED
  inputData : Option String := none
  outputData : Option String := none
  deriving DecidableEq, Repr

/-- A state of an instance, with the texts of its tokens. -/
structure StateMachineInstanceState where
  id : String
  defId : Option String
  status : StateMachineInstanceStateStatus := .CREATE
  inputStr : Option String := none
  nextTransition : Option String := none
  outputStr : Option String := none
  histories : List (History StateMachineInstanceStateStatus) := []
  events : List StateMachineInstanceStateEvent := []
  deriving DecidableEq, Repr

/-- What `StateMachineInstanceCreatedEvent` says about the definition. -/
structure WorkflowDef where
  workflowDefTechnicalId : Option String
  workflowDefId : Option String
  workflowDefName : Option String
  workflowDefDescription : Option String
  workflowDefVersion : Int
  vpn : Option String
  rootTopic : Option String
  serializedDefinition : Option String
  deriving DecidableEq, Repr

/-- The fields of a `StateMachineInstanceAggregate` that its events set. A new one has no definition yet,
and its status is the value 0, which is none of the enumeration's. -/
structure StateMachineInstance where
  id : Option String := none
  workflowDef : Option WorkflowDef := none
  createDateTime : DateTime := 0
  status : Option StateMachineInstanceStatus := none
  states : List StateMachineInstanceState := []
  histories : List (History StateMachineInstanceStatus) := []
  outputStr : Option String := none
  deriving DecidableEq, Repr

/-- The domain events, with the texts of their tokens. -/
inductive InstanceEvent where
  | stateMachineInstanceCreated (workflowDef : WorkflowDef) (createDateTime : DateTime)
  | stateInstanceCreated (stateInstanceId : String) (defId : Option String) (startDateTime : DateTime)
  | stateStarted (stateId inputStr : Option String) (startDateTime : DateTime)
  | stateReactivated (stateId : Option String) (startDateTime : DateTime)
  | stateBlocked (stateId : Option String) (blockedDateTime : DateTime)
  | stateFailed (stateId exception : Option String) (failedDateTime : DateTime)
  | stateCompleted (stateId outputStr nextTransition : Option String) (completedDateTime : DateTime)
  | stateMachineTerminated (outputStr : Option String) (terminateDateTime : DateTime)
  | stateEvtListened (stateId evtName evtSource evtType topic : Option String)
  | stateEvtConsumed (stateId evtSource evtType input : Option String)
  | stateProcessed (stateId evtName output : Option String)
  | stateMachineInstanceReactivated (reactivationDateTime : DateTime)
  deriving DecidableEq, Repr

/-- `EventListenedEvent`, the integration event of `ListenEvt`. -/
structure EventListenedEvent where
  id : String
  aggregateId : Option String
  stateInstanceId : Option String
  vpn : Option String
  rootTopic : Option String
  source : Option String
  type : Option String
  topic : Option String
  deriving DecidableEq, Repr

/-- What is thrown: a `BusinessException` with its text, or an exception of the runtime. -/
inductive InstanceException where
  | businessException (message : String)
  | nullReferenceException
  | invalidOperationException
  | jsonReaderException
  deriving DecidableEq, Repr

/-- What is used of `JToken`: `ToString`, and `Parse`, which throws on a text that is no token. Besides, what is read of the
JSON that was written of a domain event. -/
structure JTokens (J : Type*) where
  toText : J → String
  parse : String → Option J
  reread : DomainEvent InstanceEvent → Except InstanceException (DomainEvent InstanceEvent) := .ok

/-- The getters `Input` and `Output` of the events: null for a blank text, else the token, if it is one. -/
def JTokens.get? {J : Type*} (json : JTokens J) (text : Option String) : Option (Option J) :=
  if isNullOrWhiteSpace text then some none else (json.parse (text.getD "")).map some

/-! ## Histories -/

namespace History

section
variable {Status : Type}

/-- Ends the history at a place. -/
def endAt (histories : List (History Status)) (place : Option Nat) (endDateTime : DateTime) : List (History Status) :=
  place.elim histories fun k => histories.modify k fun h => { h with endDateTime := some endDateTime }

@[simp] theorem length_endAt (histories : List (History Status)) (place : Option Nat) (endDateTime : DateTime) :
    (endAt histories place endDateTime).length = histories.length := by
  cases place <;> simp [endAt]

/-- The place of `OrderBy(h => h.StartDateTime).LastOrDefault()`. -/
def lastAscending (histories : List (History Status)) : Option Nat :=
  (histories.zipIdx.insertionSort fun a b => a.1.startDateTime ≤ b.1.startDateTime).getLast?.map (·.2)

/-- The place of `OrderByDescending(h => h.StartDateTime).FirstOrDefault()`. -/
def firstDescending (histories : List (History Status)) : Option Nat :=
  (descending (fun h => h.1.startDateTime) histories.zipIdx).head?.map (·.2)

end

end History

/-! ## `StateMachineInstanceState` -/

namespace StateMachineInstanceState

/-- The newest entry of the history is ended, and one with the status is added. -/
def applyStatus (state : StateMachineInstanceState) (status : StateMachineInstanceStateStatus)
    (startDateTime : DateTime) (value : Option String) : StateMachineInstanceState :=
  { state with
    histories := History.endAt state.histories (History.firstDescending state.histories) startDateTime ++
      [{ status, startDateTime, data := value }]
    status }

/-- A new state. -/
def create (id : String) (defId : Option String) (startDateTime : DateTime) : StateMachineInstanceState :=
  applyStatus { id, defId } .CREATE startDateTime none

/-- `Start`, with the text of its input. -/
def start (state : StateMachineInstanceState) (input : String) (startDateTime : DateTime) : StateMachineInstanceState :=
  applyStatus { state with inputStr := some input } .ACTIVE startDateTime none

/-- `Activate`, after a failure. -/
def activate (state : StateMachineInstanceState) (startDateTime : DateTime) : StateMachineInstanceState :=
  state.applyStatus .ACTIVE startDateTime none

/-- `Complete`, with the text of its output. -/
def complete (state : StateMachineInstanceState) (output nextTransition : Option String) (startDateTime : DateTime) :
    StateMachineInstanceState :=
  applyStatus { state with outputStr := some (output.getD ""), nextTransition } .COMPLETE startDateTime none

/-- A state that waits. -/
def block (state : StateMachineInstanceState) (startDateTime : DateTime) : StateMachineInstanceState :=
  state.applyStatus .PENDING startDateTime none

/-- A state that failed. -/
def error (state : StateMachineInstanceState) (exception : Option String) (startDateTime : DateTime) :
    StateMachineInstanceState :=
  state.applyStatus .ERROR startDateTime exception

/-- An event that is listened to, also one with the name of another. -/
def addEvent (state : StateMachineInstanceState) (name source type topic : Option String) : StateMachineInstanceState :=
  { state with events := state.events ++ [{ name, source, type, topic }] }

/-- `TryGetEvent` by the name. -/
def tryGetEvent (state : StateMachineInstanceState) (name : Option String) : Option StateMachineInstanceStateEvent :=
  state.events.find? fun e => e.name = name

/-- `TryGetEvent` by source and type. -/
def tryGetEventOf (state : StateMachineInstanceState) (source type : Option String) :
    Option StateMachineInstanceStateEvent :=
  state.events.find? fun e => e.source = source ∧ e.type = type

/-- Changes the first event that is looked for. -/
def modifyEvent (state : StateMachineInstanceState) (wanted : StateMachineInstanceStateEvent → Bool)
    (change : StateMachineInstanceStateEvent → StateMachineInstanceStateEvent) : StateMachineInstanceState :=
  { state with events := (state.events.findIdx? wanted).elim state.events fun k => state.events.modify k change }

end StateMachineInstanceState

/-! ## The handlers -/

namespace StateMachineInstance

/-- The first state with the identifier. -/
def getState (machine : StateMachineInstance) (id : Option String) : Option StateMachineInstanceState :=
  machine.states.find? fun s => some s.id = id

/-- The first state made of the definition. -/
def getStateByDefId (machine : StateMachineInstance) (defId : Option String) : Option StateMachineInstanceState :=
  machine.states.find? fun s => s.defId = defId

/-- Changes the state `GetState` finds. -/
def modifyState (machine : StateMachineInstance) (id : Option String)
    (change : StateMachineInstanceState → StateMachineInstanceState) : StateMachineInstance :=
  { machine with
    states := (machine.states.findIdx? fun s => some s.id = id).elim machine.states fun k =>
      machine.states.modify k change }

/-- The last entry of the history is ended, and one with the status is added. -/
def updateState (machine : StateMachineInstance) (startDateTime : DateTime) (status : StateMachineInstanceStatus) :
    StateMachineInstance :=
  { machine with
    histories := History.endAt machine.histories (History.lastAscending machine.histories) startDateTime ++
      [{ status, startDateTime }]
    status := some status }

/-- The name of a status, which the value 0 does not have. -/
def statusName : Option StateMachineInstanceStatus → String
  | none => ""
  | some .ACTIVE => "ACTIVE"
  | some .TERMINATE => "TERMINATE"
  | some .FAILED => "FAILED"

section
variable {J : Type*} (json : JTokens J)

/-- `GetState` and then a method of the state, which throws on null. -/
def onState (machine : StateMachineInstance) (stateId : Option String)
    (change : StateMachineInstanceState → StateMachineInstanceState) :
    StateMachineInstance × Except InstanceException Unit :=
  match machine.getState stateId with
  | none => (machine, .error .nullReferenceException)
  | some _ => (machine.modifyState stateId change, .ok ())

/-- The handlers of the domain events, each of which changes the instance up to where it throws. -/
def handle (machine : StateMachineInstance) (evt : DomainEvent InstanceEvent) :
    StateMachineInstance × Except InstanceException Unit :=
  match evt.payload with
  | .stateMachineInstanceCreated workflowDef createDateTime =>
    ({ machine.updateState createDateTime .ACTIVE with
        id := evt.aggregateId, workflowDef := some workflowDef, createDateTime }, .ok ())
  | .stateInstanceCreated stateInstanceId defId startDateTime =>
    ({ machine with states := machine.states ++ [.create stateInstanceId defId startDateTime] }, .ok ())
  | .stateStarted stateId inputStr startDateTime =>
    match json.get? inputStr with
    | none => (machine, .error .jsonReaderException)
    | some none => (machine, .error .nullReferenceException)
    | some (some input) => machine.onState stateId (·.start (json.toText input) startDateTime)
  | .stateReactivated stateId startDateTime => machine.onState stateId (·.activate startDateTime)
  | .stateBlocked stateId blockedDateTime =>
    machine.onState stateId fun state => if state.status = .PENDING then state else state.block blockedDateTime
  | .stateFailed stateId exception failedDateTime =>
    -- the status of the instance is changed before the state is looked for
    (machine.updateState failedDateTime .FAILED).onState stateId (·.error exception failedDateTime)
  | .stateCompleted stateId outputStr nextTransition completedDateTime =>
    match json.get? outputStr with
    | none => (machine, .error .jsonReaderException)
    | some output =>
      machine.onState stateId (·.complete (output.map json.toText) nextTransition completedDateTime)
  | .stateMachineTerminated outputStr terminateDateTime =>
    -- and here before the output is read
    let terminated := machine.updateState terminateDateTime .TERMINATE
    match json.get? outputStr with
    | none => (terminated, .error .jsonReaderException)
    | some output => ({ terminated with outputStr := output.map json.toText }, .ok ())
  | .stateEvtListened stateId evtName evtSource evtType topic =>
    machine.onState stateId (·.addEvent evtName evtSource evtType topic)
  | .stateEvtConsumed stateId evtSource evtType input =>
    match (machine.getState stateId).bind (·.tryGetEventOf evtSource evtType) with
    | none => (machine, .error .nullReferenceException)
    | some _ =>
      (machine.modifyState stateId (·.modifyEvent (fun e => e.source = evtSource ∧ e.type = evtType)
        fun e => { e with state := .CONSUMED, inputData := input }), .ok ())
  | .stateProcessed stateId evtName output =>
    match (machine.getState stateId).bind (·.tryGetEvent evtName) with
    | none => (machine, .error .invalidOperationException)
    | some _ =>
      (machine.modifyState stateId (·.modifyEvent (fun e => e.name = evtName)
        fun e => { e with state := .PROCESSED, outputData := output }), .ok ())
  | .stateMachineInstanceReactivated reactivationDateTime =>
    if machine.status ≠ some .FAILED then
      (machine, .error (.businessException
        ("state machine instance with status '" ++ statusName machine.status ++ "' cannot be reactivated")))
    else (machine.updateState reactivationDateTime .ACTIVE, .ok ())

end

end StateMachineInstance

/-! ## The commands -/

/-- `StateMachineInstanceAggregate`. -/
abbrev StateMachineInstanceAggregate := AggregateRoot StateMachineInstance InstanceEvent EventListenedEvent

/-- What a command reads from outside: the new GUIDs, in the order they are drawn, and `DateTime.UtcNow`. -/
structure InstanceEnv where
  newGuid : String
  secondGuid : String
  utcNow : DateTime
  deriving DecidableEq, Repr

namespace StateMachineInstanceAggregate

section
variable {J : Type*} (json : JTokens J) (aggregate : StateMachineInstanceAggregate) (env : InstanceEnv)

/-- `Handle(evt); DomainEvts.Add(evt);`. -/
def emit (payload : InstanceEvent) : StateMachineInstanceAggregate × Except InstanceException Unit :=
  let evt : DomainEvent InstanceEvent := { id := env.newGuid, aggregateId := aggregate.state.id, payload }
  match aggregate.state.handle json evt with
  | (state, .ok ()) => ({ aggregate with state, domainEvts := aggregate.domainEvts ++ [evt] }, .ok ())
  | (state, .error e) => ({ aggregate with state }, .error e)

/-- The state it returns is the last one of `States`. -/
def addState (defId : Option String) : StateMachineInstanceAggregate × Except InstanceException Unit :=
  emit json aggregate env (.stateInstanceCreated env.secondGuid defId env.utcNow)

/-- A state is started. -/
def startState (stateId : Option String) (input : Option J) :
    StateMachineInstanceAggregate × Except InstanceException Unit :=
  emit json aggregate env (.stateStarted stateId (input.map json.toText) env.utcNow)

/-- A state is completed. -/
def completeState (stateId : Option String) (output : Option J) (nextTransition : Option String) :
    StateMachineInstanceAggregate × Except InstanceException Unit :=
  emit json aggregate env (.stateCompleted stateId (output.map json.toText) nextTransition env.utcNow)

/-- A state waits. -/
def blockState (stateId : Option String) : StateMachineInstanceAggregate × Except InstanceException Unit :=
  emit json aggregate env (.stateBlocked stateId env.utcNow)

/-- A state fails. -/
def errorState (stateId exception : Option String) : StateMachineInstanceAggregate × Except InstanceException Unit :=
  emit json aggregate env (.stateFailed stateId exception env.utcNow)

/-- A state that failed is reactivated. -/
def reactivateState (stateId : Option String) : StateMachineInstanceAggregate × Except InstanceException Unit :=
  emit json aggregate env (.stateReactivated stateId env.utcNow)

/-- The text of `Global.UnknownWorkflowState`. -/
def unknownWorkflowState (stateId : Option String) : String :=
  "the workflow state " ++ stateId.getD "" ++ " doesn't exist"

/-- A state listens to an event, and this is announced. -/
def listenEvt (stateInstanceId name source type topic : Option String) :
    StateMachineInstanceAggregate × Except InstanceException Unit :=
  match aggregate.state.getState stateInstanceId with
  | none => (aggregate, .error (.businessException (unknownWorkflowState stateInstanceId)))
  | some state =>
    if state.status ≠ .ACTIVE ∧ state.status ≠ .PENDING then
      (aggregate, .error (.businessException "an event cannot be added to an active state"))
    else
      match state.tryGetEvent name with
      | some _ => (aggregate, .ok ())
      | none =>
        let integrationEvt : EventListenedEvent :=
          { id := env.secondGuid, aggregateId := aggregate.state.id, stateInstanceId
            vpn := aggregate.state.workflowDef.bind (·.vpn), rootTopic := aggregate.state.workflowDef.bind (·.rootTopic)
            source, type, topic }
        match emit json aggregate env (.stateEvtListened stateInstanceId name source type topic) with
        | (aggregate, .ok ()) =>
          ({ aggregate with integrationEvents := aggregate.integrationEvents ++ [integrationEvt] }, .ok ())
        | failed => failed

/-- The outcome says whether the event was consumed. -/
def tryConsumeEvt (stateInstanceId source type data : Option String) :
    StateMachineInstanceAggregate × Except InstanceException Bool :=
  match aggregate.state.getState stateInstanceId with
  | none => (aggregate, .error (.businessException (unknownWorkflowState stateInstanceId)))
  | some state =>
    if state.status ≠ .ACTIVE ∧ state.status ≠ .PENDING then (aggregate, .ok false)
    else
      match state.tryGetEventOf source type with
      | none => (aggregate, .ok false)
      | some evt =>
        if evt.state = .CREATED then
          match emit json aggregate env (.stateEvtConsumed stateInstanceId source type data) with
          | (aggregate, .ok ()) => (aggregate, .ok true)
          | (aggregate, .error e) => (aggregate, .error e)
        else (aggregate, .ok false)

/-- An event of a state is processed. -/
def processEvent (stateId evtName output : Option String) :
    StateMachineInstanceAggregate × Except InstanceException Unit :=
  emit json aggregate env (.stateProcessed stateId evtName output)

/-- An instance that failed is reactivated. -/
def reactivate : StateMachineInstanceAggregate × Except InstanceException Unit :=
  emit json aggregate env (.stateMachineInstanceReactivated env.utcNow)

/-- The instance is terminated. -/
def terminate (output : Option J) : StateMachineInstanceAggregate × Except InstanceException Unit :=
  emit json aggregate env (.stateMachineTerminated (output.map json.toText) env.utcNow)

end

/-- `Create`; the second GUID is the `Id` of the instance. -/
def create {J : Type*} (json : JTokens J) (env : InstanceEnv) (workflowDef : WorkflowDef) :
    StateMachineInstanceAggregate :=
  let evt : DomainEvent InstanceEvent :=
    { id := env.newGuid, aggregateId := some env.secondGuid
      payload := .stateMachineInstanceCreated workflowDef env.utcNow }
  { state := (({} : StateMachineInstance).handle json evt).1, domainEvts := [evt] }

end StateMachineInstanceAggregate

/-- The commands, with their arguments. -/
inductive InstanceCommand (J : Type*) where
  | addState (defId : Option String)
  | startState (stateId : Option String) (input : Option J)
  | completeState (stateId : Option String) (output : Option J) (nextTransition : Option String)
  | blockState (stateId : Option String)
  | errorState (stateId exception : Option String)
  | reactivateState (stateId : Option String)
  | listenEvt (stateInstanceId name source type topic : Option String)
  | tryConsumeEvt (stateInstanceId source type data : Option String)
  | processEvent (stateId evtName output : Option String)
  | reactivate
  | terminate (output : Option J)
  deriving DecidableEq, Repr

namespace StateMachineInstanceAggregate

section
variable {J : Type*} (json : JTokens J)

/-- Runs a command. -/
def exec (aggregate : StateMachineInstanceAggregate) (env : InstanceEnv) :
    InstanceCommand J → StateMachineInstanceAggregate × Except InstanceException Unit
  | .addState defId => addState json aggregate env defId
  | .startState stateId input => startState json aggregate env stateId input
  | .completeState stateId output nextTransition => completeState json aggregate env stateId output nextTransition
  | .blockState stateId => blockState json aggregate env stateId
  | .errorState stateId exception => errorState json aggregate env stateId exception
  | .reactivateState stateId => reactivateState json aggregate env stateId
  | .listenEvt stateInstanceId name source type topic =>
    listenEvt json aggregate env stateInstanceId name source type topic
  | .tryConsumeEvt stateInstanceId source type data =>
    let (aggregate, outcome) := tryConsumeEvt json aggregate env stateInstanceId source type data
    (aggregate, outcome.map fun _ => ())
  | .processEvent stateId evtName output => processEvent json aggregate env stateId evtName output
  | .reactivate => reactivate json aggregate env
  | .terminate output => terminate json aggregate env output

end

end StateMachineInstanceAggregate

end FaasNet.StateMachine
