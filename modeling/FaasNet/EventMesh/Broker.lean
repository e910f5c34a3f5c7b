import FaasNet.Common.Text
import FaasNet.EventMesh.PackageCodec
import FaasNet.EventMesh.TypedStores

/-!
# The broker

The handlers of the requests that clients send to a node, over its node state store and the logs of its topics.
A message that is published to a known topic is handed to the peers of the topic; when and where a peer appends it
is up to them, so an append is an event of its own. The first message of a topic is appended at once. An append
puts the message into the queues of the exchanges whose filter matches the topic, if the peer leads.
-/

namespace FaasNet.EventMesh.Runtime

open FaasNet.Lib FaasNet.Common FaasNet.RaftConsensus
open IEntityStore (getLastEntityId)
open FaasNet.EventMesh.Client (Package UserAgent)

/-! ## What is outside -/

/-- The ticks of the time spans of `EventMeshNodeOptions`. -/
structure EventMeshNodeOptions where
  defaultSubSessionExpirationTimeSpan : Int := 36000000000
  defaultPubSessionExpirationTimeSpan : Int := 600000000
  maxPubSessionExpirationTimeSpan : Int := 3000000000
  minSubSessionExpirationTimeSpan : Int := 600000000
  deriving DecidableEq, Repr

/-- The libraries a node uses, and its options. What throws has no result. -/
structure Libraries (E : Type) where
  options : EventMeshNodeOptions
  json : JsonReader
  /-- `new Regex(filter).IsMatch(topic)` -/
  isMatch : String → String → Option Bool
  /-- The event with another `Type`. -/
  setType : E → String → Option E
  serializeBase64 : E → Option String
  /-- `Convert.FromBase64String(text).DeserializeCloudEvent()` -/
  deserializeBase64 : String → Option E

/-- What a request reads from outside: the clock and the new GUIDs, in the order they are read, whether `SendMessage`
returns, and the VPNs of the target of a bridge, if it is reachable. -/
structure RequestEnv where
  utcNow : Nat → DateTime
  newGuid : Nat → String
  sent : Bool := true
  targetVpns : Option (List String) := none

/-! ## Queries of the store -/

namespace InMemoryEntities

/-- `GetAllLastEntityTypes(entityType)`. -/
def getAllLastEntityTypes (entityType : String) (entities : InMemoryEntities) : List Entity :=
  firstOfEach Entity.entityId
    (descending Entity.entityVersion (entities.nodeStates.filter fun ns => ns.entityType = entityType))

/-- The newest entity of a type. -/
def getLastEntityType (entityType : String) (entities : InMemoryEntities) : Option Entity :=
  (descending Entity.entityVersion entities.nodeStates).find? (·.entityType = entityType)

/-- `Add` of a record whose version follows the last one of its type. -/
def addOfType (entityType entityId : String) (value : EntityValue) (entities : InMemoryEntities) : InMemoryEntities :=
  IEntityStore.add ⟨entityType, some entityId, versionAfter (entities.getLastEntityType entityType), value⟩ entities

end InMemoryEntities

/-- A record as `QueueStore` sees it, whose records hold texts. -/
def Entity.toNodeState (entity : Entity) : NodeState :=
  ⟨entity.entityType, entity.entityId.getD "", entity.entityVersion,
    match entity.value with
    | .text text => text
    | _ => ""⟩

instance : INodeStateStore InMemoryEntities where
  overwrites _ := false
  add ns entities := IEntityStore.add ⟨ns.entityType, some ns.entityId, ns.entityVersion, .text ns.value⟩ entities
  getLastEntityType entityType entities := (entities.getLastEntityType entityType).map Entity.toNodeState
  getSpecificEntityType entityType version entities :=
    (entities.nodeStates.find? fun ns => ns.entityType = entityType ∧ ns.entityVersion = version).map Entity.toNodeState

/-! ## VPNs, exchanges and peers -/

namespace VpnStore

/-- `GetAll`, each with what it is read as. -/
def getAll (json : JsonReader) (entities : InMemoryEntities) : List (Option (Option Vpn)) :=
  ((entities.getAllLastEntityTypes StandardEntityTypes.vpn).insertionSort
    fun a b => a.entityVersion ≤ b.entityVersion).map fun ns => ns.value.readVpn json

/-- `FirstOrDefault` by the name, which throws at a null or at what cannot be read. -/
def firstNamed (name : Option String) : List (Option (Option Vpn)) → Option (Option Vpn)
  | [] => some none
  | none :: _ => none
  | some none :: _ => none
  | some (some vpn) :: vpns => if vpn.name = name then some (some vpn) else firstNamed name vpns

/-- The VPN with a name. -/
def get (json : JsonReader) (name : Option String) (entities : InMemoryEntities) : Option (Option Vpn) :=
  firstNamed name (getAll json entities)

/-- `Add`, under a new GUID. -/
def add (entityId : String) (vpn : Vpn) (entities : InMemoryEntities) : InMemoryEntities :=
  entities.addOfType StandardEntityTypes.vpn entityId (.vpn vpn)

end VpnStore

/-- `FilterWildcard`. -/
def filterWildcard : String := "*"

section
variable {E : Type} (libraries : Libraries E)

/-- `IsMatch`; a regular expression is not made of null. -/
def MessageExchange.isMatch (exchange : MessageExchange) (topic : String) : Option Bool :=
  match exchange.topicFilter with
  | none => none
  | some topicFilter => if topicFilter = filterWildcard then some true else libraries.isMatch topicFilter topic

/-- The queue names a record of an exchange gives to `GetQueueNames`. -/
def queueNamesOf (topic : String) (nodeState : Entity) : Option (List String) :=
  match nodeState.value.readMessageExchange libraries.json with
  | some (some exchange) => (exchange.isMatch libraries topic).map fun found => if found then exchange.queueNames else []
  | _ => none

/-- `EventMeshPeer.GetQueueNames`. -/
def getQueueNames (topic : String) (entities : InMemoryEntities) : Option (List String) :=
  ((entities.getAllLastEntityTypes StandardEntityTypes.messageExchange).mapM (queueNamesOf libraries topic)).map
    fun names => names.flatten.eraseDups

/-- `EventMeshPeer.AppendMessage`, with the GUIDs of the records. -/
def appendMessage (message : String) (newGuid : Nat → String) : List String → InMemoryEntities → InMemoryEntities
  | [], entities => entities
  | queueName :: queueNames, entities =>
    appendMessage message (fun k => newGuid (k + 1)) queueNames (QueueStore.add queueName message (newGuid 0) entities)

/-- The peer of a topic and its log. -/
structure TopicPeer where
  termId : String
  logRecords : List (LogRecord String)
  deriving DecidableEq, Repr

/-- What the requests read and write of a node. -/
structure Broker where
  entities : InMemoryEntities
  peers : List TopicPeer
  deriving DecidableEq, Repr

namespace Broker

/-- A node that has just been set up. -/
def empty : Broker := ⟨⟨[]⟩, []⟩

/-- The peer of a topic. -/
def findPeer (broker : Broker) (topic : String) : Option TopicPeer := broker.peers.find? (·.termId = topic)

/-- `AppendEntry` of the peer of a topic; it says whether `AddEntry` returns. -/
def appendEntry (broker : Broker) (newGuid : Nat → String) (leads : Bool) (topic : String) (record : LogRecord String) :
    Broker × Bool :=
  let peers := (broker.peers.findIdx? (·.termId = topic)).elim broker.peers fun k =>
    broker.peers.modify k fun peer => { peer with logRecords := peer.logRecords ++ [record] }
  if leads then
    match getQueueNames libraries topic broker.entities with
    | none => (⟨broker.entities, peers⟩, false)
    | some queueNames => (⟨appendMessage record.value newGuid queueNames broker.entities, peers⟩, true)
  else (⟨broker.entities, peers⟩, true)

/-- `AddPeer` and `StartPeer`. -/
def addPeer (broker : Broker) (entityId termId : String) : Broker :=
  ⟨broker.entities.addOfType RaftConsensus.StandardEntityTypes.peer entityId (.peer termId),
    broker.peers ++ [⟨termId, []⟩]⟩

end Broker

end

/-! ## Sessions -/

/-- The largest number of ticks of a `DateTime`. -/
def maxTicks : Int := 3155378975999999999

/-- The getter `Purpose`, which throws for a code that no purpose has. -/
def ClientSession.purpose (session : ClientSession) : Option UserAgentPurpose :=
  [UserAgentPurpose.SUB, .PUB].find? fun purpose => Client.UserAgentPurpose.code purpose = session.purposeCode

/-- A session is active until it expires or is finished. -/
def ClientSession.isActive (session : ClientSession) (utcNow : DateTime) : Bool :=
  session.state = .ACTIVE && session.expirationDateTime.elim true fun expiration => decide (utcNow < expiration)

/-- A session is finished. -/
def ClientSession.close (session : ClientSession) : ClientSession := { session with state := .FINISH }

/-- `ClientSession.Create`; it throws when the expiration is no `DateTime`. -/
def ClientSession.create (env : RequestEnv) (pid : Int) (purpose : UserAgentPurpose) (clientId vpn : Option String)
    (expirationTimeSpan : Int) (isSessionInfinite : Bool) : Option ClientSession :=
  let expirationDateTime := env.utcNow 0 + expirationTimeSpan
  if 0 ≤ expirationDateTime ∧ expirationDateTime ≤ maxTicks then
    some
      { id := some (env.newGuid 0), vpn, clientId, pid
        purposeCode := Client.UserAgentPurpose.code purpose
        createDateTime := env.utcNow 1
        expirationDateTime := if isSessionInfinite then none else some expirationDateTime }
  else none

/-! ## The handlers -/

/-- The requests of clients. A `SubscriptionItem` is its topic. -/
inductive Request (E : Type) where
  | hello (userAgent : UserAgent)
  | subscribe (sessionId groupId : String) (topicFilters : List String)
  | publish (sessionId topic : String) (cloudEvent : E)
  | readNext (sessionId groupId : String)
  | readTopic (topic : String) (evtOffset : Int)
  | disconnect (clientId sessionId : String)
  | addVpn (vpn : String)
  | addClient (vpn clientId : String) (purposes : List UserAgentPurpose)
  | addBridge (sourceVpn targetVpn targetUrn : String) (targetPort : Int) (targetClientId : String)

/-- The command of a request. -/
def Request.command {E : Type} : Request E → Client.Commands
  | hello .. => .HELLO_REQUEST
  | subscribe .. => .SUBSCRIBE_REQUEST
  | publish .. => .PUBLISH_MESSAGE_REQUEST
  | readNext .. => .READ_NEXT_MESSAGE_REQUEST
  | readTopic .. => .READ_TOPIC_MESSAGE_REQUEST
  | disconnect .. => .DISCONNECT_REQUEST
  | addVpn .. => .ADD_VPN_REQUEST
  | addClient .. => .ADD_CLIENT_REQUEST
  | addBridge .. => .ADD_BRIDGE_REQUEST

/-- The session a request names. -/
def Request.sessionId {E : Type} : Request E → Option String
  | subscribe sessionId .. => some sessionId
  | publish sessionId .. => some sessionId
  | readNext sessionId .. => some sessionId
  | disconnect _ sessionId => some sessionId
  | _ => none

/-- `Errors`, by the code. -/
abbrev Errors := Client.Errors

/-- What is thrown but a `RuntimeException` is answered with this error. -/
def orInternalError {T : Type} (result : Option T) : Except Errors T := result.elim (.error ⟨"INTERNAL_ERROR"⟩) .ok

/-- A check that throws a `RuntimeException`. -/
def ensure (condition : Prop) [Decidable condition] (error : Errors) : Except Errors Unit :=
  if condition then .ok () else .error error

/-- `EventMeshPackageResult`. -/
inductive HandlerResult (E : Type) where
  | sendResult (package : Package E)
  | addPeer (termId : String) (package : Package E) (logRecord : LogRecord String)

/-- The node a handler leaves, and what it returns or throws. -/
abbrev Handled (E : Type) := Broker × Except Errors (HandlerResult E)

namespace Broker

section
variable {E : Type} (libraries : Libraries E) (broker : Broker) (env : RequestEnv) (seq : String)

/-- `GetSession` of `ReadNextMessageHandler` up to its checks: the session, which must not be null. -/
def getSession (sessionId : String) : Except Errors ClientSession := do
  let session ← orInternalError (ClientSessionStore.get libraries.json (some sessionId) broker.entities)
  session.elim (.error ⟨"INVALID_SESSION"⟩) .ok

/-- `GetActiveSession`, which also looks for the VPN of the session but asks nothing of it. -/
def getActiveSession (sessionId : String) : Except Errors ClientSession := do
  let session ← getSession libraries broker sessionId
  let _ ← orInternalError (VpnStore.get libraries.json session.vpn broker.entities)
  return session

/-- The check of the purpose, with its error. -/
def checkPurpose (session : ClientSession) (purpose : UserAgentPurpose) (error : Errors) : Except Errors Unit := do
  let found ← orInternalError session.purpose
  ensure (found = purpose) error

/-- A session that is not active is an error. -/
def checkActive (session : ClientSession) (utcNow : DateTime) : Except Errors Unit :=
  ensure (session.isActive utcNow) ⟨"NO_ACTIVE_SESSION"⟩

/-- `ComputeSessionExpirationDateTime`. -/
def computeSessionExpiration (userAgent : UserAgent) : Except Errors Int :=
  match userAgent.purpose with
  | .PUB =>
    if userAgent.isSessionInfinite then .error ⟨"SESSION_LIFETIME_CANNOT_BE_INFINITE"⟩
    else if userAgent.expiration.any (libraries.options.maxPubSessionExpirationTimeSpan < ·) then
      .error ⟨"SESSION_LIFETIME_TOOLONG"⟩
    else .ok (userAgent.expiration.getD libraries.options.defaultPubSessionExpirationTimeSpan)
  | .SUB =>
    if userAgent.expiration.any (· < libraries.options.minSubSessionExpirationTimeSpan) then
      .error ⟨"SESSION_LIFETIME_TOOSHORT"⟩
    else .ok (userAgent.expiration.getD libraries.options.defaultSubSessionExpirationTimeSpan)

/-- `CheckVpn` and `AuthenticateClient`. -/
def authenticate (userAgent : UserAgent) : Except Errors Client := do
  let vpn ← orInternalError (VpnStore.get libraries.json (some userAgent.vpn) broker.entities)
  ensure (vpn ≠ none) ⟨"UNKNOWN_VPN"⟩
  let found ← orInternalError
    (ClientStore.get libraries.json (some userAgent.vpn) (some userAgent.clientId) broker.entities)
  let client ← found.elim (.error ⟨"INVALID_CLIENT"⟩) .ok
  let purposes ← orInternalError client.purposes
  ensure (Client.UserAgentPurpose.code userAgent.purpose ∈ purposes) ⟨"NOT_AUTHORIZED"⟩
  return client

/-- The session of `AddSession`. -/
def createSession (userAgent : UserAgent) : Except Errors ClientSession := do
  let client ← authenticate libraries broker userAgent
  let expirationTimeSpan ← computeSessionExpiration libraries userAgent
  orInternalError (ClientSession.create env userAgent.pid userAgent.purpose client.clientId (some userAgent.vpn)
    expirationTimeSpan userAgent.isSessionInfinite)

/-- `HelloMessageHandler`. -/
def hello (userAgent : UserAgent) : Handled E :=
  match createSession libraries broker env userAgent with
  | .error error => (broker, .error error)
  | .ok session =>
    ({ broker with entities := ClientSessionStore.add session broker.entities },
      .ok (.sendResult (Client.PackageResponseBuilder.hello seq (env.newGuid 0))))

/-- `AddMessageExchanges`; it says whether it returns. -/
def addMessageExchanges (queueName : String) : List String → InMemoryEntities → InMemoryEntities × Bool
  | [], entities => (entities, true)
  | topicFilter :: topicFilters, entities =>
    match MessageExchangeStore.get libraries.json (some topicFilter) entities with
    | none => (entities, false)
    | some found =>
      let exchange := found.getD { topicFilter := some topicFilter }
      let exchange :=
        if queueName ∈ exchange.queueNames then exchange
        else { exchange with queueNames := exchange.queueNames ++ [queueName] }
      addMessageExchanges queueName topicFilters (MessageExchangeStore.add exchange entities)

/-- `CheckSession` of `SubscribeMessageHandler`: whether the session is active is not asked. -/
def checkSubscriber (sessionId : String) : Except Errors Unit := do
  let session ← getActiveSession libraries broker sessionId
  checkPurpose session .SUB ⟨"UNAUTHORIZED_SUBSCRIBE"⟩

/-- `SubscribeMessageHandler`. -/
def subscribe (sessionId groupId : String) (topicFilters : List String) : Handled E :=
  match checkSubscriber libraries broker sessionId with
  | .error error => (broker, .error error)
  | .ok () =>
    let (entities, returned) := addMessageExchanges libraries groupId topicFilters broker.entities
    ({ broker with entities },
      if returned then .ok (.sendResult (Client.PackageResponseBuilder.subscription seq groupId))
      else .error ⟨"INTERNAL_ERROR"⟩)

/-- `CheckSession` of `PublishMessageRequestHandler`. -/
def checkPublisher (sessionId : String) : Except Errors Unit := do
  let session ← getActiveSession libraries broker sessionId
  checkPurpose session .PUB ⟨"UNAUTHORIZED_PUBLISH"⟩
  checkActive session (env.utcNow 0)

/-- `PublishMessageRequestHandler`. -/
def publish (sessionId topic : String) (cloudEvent : E) : Except Errors (HandlerResult E) := do
  let cloudEvent ← orInternalError (libraries.setType cloudEvent topic)
  checkPublisher libraries broker env sessionId
  let result := Client.PackageResponseBuilder.publishMessage seq
  let base64Message ← orInternalError (libraries.serializeBase64 cloudEvent)
  if (broker.findPeer topic).isSome then
    if env.sent then .ok (.sendResult result) else .error ⟨"INTERNAL_ERROR"⟩
  else .ok (.addPeer topic result ⟨1, base64Message⟩)

/-- `GetSession` of `ReadNextMessageHandler`. -/
def checkReader (sessionId : String) : Except Errors Unit := do
  let session ← getSession libraries broker sessionId
  checkPurpose session .SUB ⟨"UNAUTHORIZED_PUBLISH"⟩
  checkActive session (env.utcNow 0)

/-- The event of a text; a null or blank text has none. -/
def eventOf (text : Option String) : Except Errors (Option E) :=
  if isNullOrWhiteSpace text then .ok none
  else (orInternalError (libraries.deserializeBase64 (text.getD ""))).map some

/-- `ReadNextMessageHandler`; the message is taken also when it cannot be read. -/
def readNext (sessionId groupId : String) : Handled E :=
  match checkReader libraries broker env sessionId with
  | .error error => (broker, .error error)
  | .ok () =>
    let (lastLog, entities) := QueueStore.dequeue groupId (env.newGuid 0) broker.entities
    ({ broker with entities }, (eventOf libraries lastLog).map fun cloudEvt =>
      .sendResult (Client.PackageResponseBuilder.readNextMessage seq cloudEvt))

/-- `ReadTopicMessageHandler`. -/
def readTopic (topic : String) (evtOffset : Int) : Except Errors (HandlerResult E) :=
  let record := (broker.findPeer topic).bind fun peer => peer.logRecords.find? (·.index = evtOffset)
  (eventOf libraries (record.map (·.value))).map fun cloudEvt =>
    .sendResult (Client.PackageResponseBuilder.readTopicMessage seq topic cloudEvt evtOffset)

/-- `DisconnectMessageHandler`. -/
def disconnect (sessionId : String) : Handled E :=
  match getActiveSession libraries broker sessionId with
  | .error error => (broker, .error error)
  | .ok session =>
    ({ broker with entities := ClientSessionStore.add session.close broker.entities },
      .ok (.sendResult (Client.PackageResponseBuilder.disconnect seq)))

/-- `AddVpnMessageHandler`. -/
def addVpn (vpn : String) : Handled E :=
  match orInternalError (VpnStore.get libraries.json (some vpn) broker.entities) with
  | .error error => (broker, .error error)
  | .ok (some _) => (broker, .error ⟨"VPN_ALREADY_EXISTS"⟩)
  | .ok none =>
    ({ broker with
        entities := VpnStore.add (env.newGuid 0)
          { name := some vpn, description := some "", createDateTime := env.utcNow 0, updateDateTime := env.utcNow 1 }
          broker.entities },
      .ok (.sendResult (Client.PackageResponseBuilder.addVpn seq)))

/-- `AddClientMessageHandler`. -/
def addClient (vpn clientId : String) (purposes : List UserAgentPurpose) : Handled E :=
  match orInternalError (VpnStore.get libraries.json (some vpn) broker.entities) with
  | .error error => (broker, .error error)
  | .ok none => (broker, .error ⟨"UNKNOWN_VPN"⟩)
  | .ok (some _) =>
    match orInternalError (ClientStore.get libraries.json (some vpn) (some clientId) broker.entities) with
    | .error error => (broker, .error error)
    | .ok (some _) => (broker, .error ⟨"CLIENT_ALREADY_EXISTS"⟩)
    | .ok none =>
      ({ broker with
          entities := ClientStore.add
            { id := some (env.newGuid 0), clientId := some clientId, vpn := some vpn, createDateTime := env.utcNow 0
              purposes := some (purposes.map Client.UserAgentPurpose.code) } broker.entities },
        .ok (.sendResult (Client.PackageResponseBuilder.client seq)))

/-- `Any` by the name, which throws at a null or at what cannot be read. -/
def knowsVpn (name : String) : Option Bool :=
  (VpnStore.get libraries.json (some name) broker.entities).map Option.isSome

/-- `AddBridgeVpnMessageHandler`. -/
def addBridge (sourceVpn targetVpn targetUrn : String) (targetPort : Int) (targetClientId : String) : Handled E :=
  match env.targetVpns with
  | none => (broker, .error ⟨"TARGET_NOT_REACHABLE"⟩)
  | some targetVpns =>
    if targetVpn ∉ targetVpns then (broker, .error ⟨"UNKNOWN_TARGET_VPN"⟩)
    else
      match knowsVpn libraries broker sourceVpn with
      | none => (broker, .error ⟨"INTERNAL_ERROR"⟩)
      | some false => (broker, .error ⟨"UNKNOWN_SOURCE_VPN"⟩)
      | some true =>
        ({ broker with
            entities := broker.entities.addOfType StandardEntityTypes.bridgeServer (env.newGuid 0)
              (.bridgeServer ⟨some sourceVpn, some targetUrn, targetPort, some targetVpn, some targetClientId⟩) },
          .ok (.sendResult (Client.PackageResponseBuilder.addBridge seq)))

/-- `Run` of the handler of a request. -/
def runHandler : Request E → Handled E
  | .hello userAgent => hello libraries broker env seq userAgent
  | .subscribe sessionId groupId topicFilters => subscribe libraries broker seq sessionId groupId topicFilters
  | .publish sessionId topic cloudEvent => (broker, publish libraries broker env seq sessionId topic cloudEvent)
  | .readNext sessionId groupId => readNext libraries broker env seq sessionId groupId
  | .readTopic topic evtOffset => (broker, readTopic libraries broker seq topic evtOffset)
  | .disconnect _ sessionId => disconnect libraries broker seq sessionId
  | .addVpn vpn => addVpn libraries broker env seq vpn
  | .addClient vpn clientId purposes => addClient libraries broker env seq vpn clientId purposes
  | .addBridge sourceVpn targetVpn targetUrn targetPort targetClientId =>
    addBridge libraries broker env seq sourceVpn targetVpn targetUrn targetPort targetClientId

/-- `EventMeshNode.HandlePackage`: the node after a request, and the answer, if one is sent. -/
def handlePackage (request : Request E) : Broker × Option (Package E) :=
  match runHandler libraries broker env seq request with
  | (broker, .error error) => (broker, Client.PackageResponseBuilder.error seq request.command error)
  | (broker, .ok (.sendResult package)) => (broker, some package)
  | (broker, .ok (.addPeer termId package logRecord)) =>
    -- the first GUID is that of the PEER entity
    let (broker, returned) := (broker.addPeer (env.newGuid 0) termId).appendEntry libraries
      (fun k => env.newGuid (k + 1)) true termId logRecord
    (broker, if returned then some package else none)

end

end Broker

/-! ## Runs -/

/-- What happens on a node: a request comes in, or a peer appends a record to the log of its topic. -/
inductive BrokerEvent (E : Type) where
  | request (seq : String) (request : Request E) (env : RequestEnv)
  | append (topic : String) (record : LogRecord String) (leads : Bool) (newGuid : Nat → String)

/-- The node after an event, and the answer. -/
def Broker.next {E : Type} (libraries : Libraries E) (broker : Broker) : BrokerEvent E → Broker × Option (Package E)
  | .request seq request env => broker.handlePackage libraries env seq request
  | .append topic record leads newGuid => ((broker.appendEntry libraries newGuid leads topic record).1, none)

end FaasNet.EventMesh.Runtime
