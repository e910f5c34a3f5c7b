import Mathlib.Data.List.Infix
import FaasNet.Lib.Runs
import FaasNet.EventMesh.Broker

/-!
# Sessions of the broker

A session is a record that HELLO writes under a new GUID and DISCONNECT writes again, closed. A request that names
a session finds the last record under the id it gives, whatever its type. As long as what is found is a record of a
session, the session was granted by HELLO with its purpose. A closed session stays closed, since nothing else opens
it; but only PUBLISH and READ_NEXT ask whether it is.
-/

namespace FaasNet.EventMesh.Runtime

open FaasNet.Lib FaasNet.RaftConsensus
open IEntityStore (getLastEntityId)
open FaasNet.EventMesh.Client (Package UserAgent)

/-! ## What an event writes -/

/-- Two methods in a row return what both return. -/
theorem bind_eq_ok {ε α β : Type} {x : Except ε α} {f : α → Except ε β} {result : β} :
    x >>= f = .ok result ↔ ∃ a, x = .ok a ∧ f a = .ok result := by
  cases x with
  | error e => simp [bind, Except.bind]
  | ok a => simp [bind, Except.bind]

/-- The GUIDs that an event may draw. -/
def BrokerEvent.newGuid {E : Type} : BrokerEvent E → Nat → String
  | .request _ _ env => env.newGuid
  | .append _ _ _ newGuid => newGuid

section
variable {E : Type} {libraries : Libraries E} {broker : Broker}

/-- The records that an event adds, by what makes them. -/
inductive WrittenBy (libraries : Libraries E) (broker : Broker) (event : BrokerEvent E) : Entity → Prop where
  | session {seq : String} {userAgent : UserAgent} {env : RequestEnv} {session : ClientSession}
      (hello : event = .request seq (.hello userAgent) env)
      (created : broker.createSession libraries env userAgent = .ok session) :
      WrittenBy libraries broker event ⟨StandardEntityTypes.clientSession, session.id,
        versionAfter (getLastEntityId session.id broker.entities), .clientSession session⟩
  | closed {seq clientId sessionId : String} {env : RequestEnv} {session : ClientSession}
      (disconnect : event = .request seq (.disconnect clientId sessionId) env)
      (found : broker.getActiveSession libraries sessionId = .ok session) :
      WrittenBy libraries broker event ⟨StandardEntityTypes.clientSession, session.id,
        versionAfter (getLastEntityId session.id broker.entities), .clientSession session.close⟩
  | exchange (exchange : MessageExchange) (version : Int) :
      WrittenBy libraries broker event ⟨StandardEntityTypes.messageExchange, exchange.topicFilter, version,
        .messageExchange exchange⟩
  | client (client : Client) (version : Int)
      (unknown : ClientStore.get libraries.json client.vpn client.clientId broker.entities = some none) :
      WrittenBy libraries broker event ⟨StandardEntityTypes.client, some (Client.buildId client.vpn client.clientId),
        version, .client client⟩
  | other {entity : Entity} (k : Nat) (named : entity.entityId = some (event.newGuid k))
      (noSession : entity.entityType ≠ StandardEntityTypes.clientSession) : WrittenBy libraries broker event entity

/-- The records after an event are those before it and some that it writes. -/
def Writes (libraries : Libraries E) (broker : Broker) (event : BrokerEvent E) (after : InMemoryEntities) : Prop :=
  ∃ added, after.nodeStates = broker.entities.nodeStates ++ added ∧
    ∀ entity ∈ added, WrittenBy libraries broker event entity

variable {event : BrokerEvent E}

theorem Writes.nothing : Writes libraries broker event broker.entities := ⟨[], by simp, by simp⟩

theorem Writes.one {entity : Entity} (written : WrittenBy libraries broker event entity) :
    Writes libraries broker event (IEntityStore.add entity broker.entities) :=
  ⟨[entity], rfl, by simpa using written⟩

theorem Writes.add {entities : InMemoryEntities} (writes : Writes libraries broker event entities) {entity : Entity}
    (written : WrittenBy libraries broker event entity) :
    Writes libraries broker event (IEntityStore.add entity entities) := by
  obtain ⟨added, appended, each⟩ := writes
  refine ⟨added ++ [entity], ?_, ?_⟩
  · rw [← List.append_assoc, ← appended]
    rfl
  · intro e inside
    rcases List.mem_append.mp inside with earlier | last
    · exact each e earlier
    · exact List.mem_singleton.mp last ▸ written

theorem addMessageExchanges_writes (queueName : String) (topicFilters : List String) {entities : InMemoryEntities}
    (writes : Writes libraries broker event entities) :
    Writes libraries broker event (Broker.addMessageExchanges libraries queueName topicFilters entities).1 := by
  induction topicFilters generalizing entities with
  | nil => exact writes
  | cons topicFilter topicFilters ih =>
    unfold Broker.addMessageExchanges
    cases MessageExchangeStore.get libraries.json (some topicFilter) entities with
    | none => exact writes
    | some found => exact ih (writes.add (.exchange _ _))

/-- Texts that begin with different letters. -/
theorem append_ne {text other : String} (started : text.toList ≠ [])
    (different : text.toList.head? ≠ other.toList.head?) (rest : String) : text ++ rest ≠ other := by
  intro same
  have first : (text ++ rest).toList.head? = other.toList.head? := congrArg (fun text => text.toList.head?) same
  rw [String.toList_append, List.head?_append_of_ne_nil _ started] at first
  exact different first

theorem queue_ne_clientSession (queueName : String) :
    StandardEntityTypes.queue queueName ≠ StandardEntityTypes.clientSession :=
  append_ne (by decide) (by decide) queueName

theorem consumedQueueMessage_ne_clientSession (queueName : String) :
    StandardEntityTypes.consumedQueueMessage queueName ≠ StandardEntityTypes.clientSession :=
  append_ne (by decide) (by decide) queueName

theorem appendMessage_writes (message : String) {newGuid : Nat → String} (queueNames : List String)
    (drawn : ∀ k, ∃ j, newGuid k = event.newGuid j) {entities : InMemoryEntities}
    (writes : Writes libraries broker event entities) :
    Writes libraries broker event (appendMessage message newGuid queueNames entities) := by
  induction queueNames generalizing entities newGuid with
  | nil => exact writes
  | cons queueName queueNames ih =>
    obtain ⟨j, guid⟩ := drawn 0
    refine ih (fun k => drawn (k + 1)) (writes.add (.other j ?_ (queue_ne_clientSession queueName)))
    exact congrArg some guid

theorem appendEntry_writes (broker' : Broker) (newGuid : Nat → String) (leads : Bool) (topic : String)
    (record : LogRecord String) (drawn : ∀ k, ∃ j, newGuid k = event.newGuid j)
    (writes : Writes libraries broker event broker'.entities) :
    Writes libraries broker event (broker'.appendEntry libraries newGuid leads topic record).1.entities := by
  unfold Broker.appendEntry
  dsimp only
  split
  · cases getQueueNames libraries topic broker'.entities with
    | none => exact writes
    | some queueNames => exact appendMessage_writes _ queueNames drawn writes
  · exact writes

theorem dequeue_writes (groupId : String) (k : Nat) :
    Writes libraries broker event (QueueStore.dequeue groupId (event.newGuid k) broker.entities).2 := by
  unfold QueueStore.dequeue
  dsimp only
  split
  · exact .nothing
  · exact .one (.other k rfl (consumedQueueMessage_ne_clientSession groupId))

theorem runHandler_writes (seq : String) (request : Request E) (env : RequestEnv) :
    Writes libraries broker (.request seq request env) (broker.runHandler libraries env seq request).1.entities := by
  cases request with
  | hello userAgent =>
    simp only [Broker.runHandler, Broker.hello]
    cases created : broker.createSession libraries env userAgent with
    | error error => exact .nothing
    | ok session => exact .one (.session rfl created)
  | subscribe sessionId groupId topicFilters =>
    simp only [Broker.runHandler, Broker.subscribe]
    split
    · exact .nothing
    · exact addMessageExchanges_writes groupId topicFilters .nothing
  | publish sessionId topic cloudEvent => exact .nothing
  | readNext sessionId groupId =>
    simp only [Broker.runHandler, Broker.readNext]
    split
    · exact .nothing
    · exact dequeue_writes groupId 0
  | readTopic topic evtOffset => exact .nothing
  | disconnect clientId sessionId =>
    simp only [Broker.runHandler, Broker.disconnect]
    cases found : broker.getActiveSession libraries sessionId with
    | error error => exact .nothing
    | ok session =>
      have written : WrittenBy libraries broker (.request seq (.disconnect clientId sessionId) env)
          ⟨StandardEntityTypes.clientSession, session.id, versionAfter (getLastEntityId session.id broker.entities),
            .clientSession session.close⟩ := .closed rfl found
      exact .one written
  | addVpn vpn =>
    simp only [Broker.runHandler, Broker.addVpn]
    split
    · exact .nothing
    · exact .nothing
    · have noSession : StandardEntityTypes.vpn ≠ StandardEntityTypes.clientSession := by decide
      exact .one (.other 0 rfl noSession)
  | addClient vpn clientId purposes =>
    simp only [Broker.runHandler, Broker.addClient]
    split
    · exact .nothing
    · exact .nothing
    · cases known : ClientStore.get libraries.json (some vpn) (some clientId) broker.entities with
      | none => exact .nothing
      | some found =>
        cases found with
        | some client => exact .nothing
        | none => exact .one (.client _ _ known)
  | addBridge sourceVpn targetVpn targetUrn targetPort targetClientId =>
    simp only [Broker.runHandler, Broker.addBridge]
    split
    · exact .nothing
    split
    · exact .nothing
    split
    · exact .nothing
    · exact .nothing
    · have noSession : StandardEntityTypes.bridgeServer ≠ StandardEntityTypes.clientSession := by decide
      exact .one (.other 0 rfl noSession)

/-- **What an event writes.** -/
theorem next_writes (event : BrokerEvent E) : Writes libraries broker event (broker.next libraries event).1.entities := by
  cases event with
  | append topic record leads newGuid =>
    exact appendEntry_writes broker newGuid leads topic record (fun k => ⟨k, rfl⟩) .nothing
  | request seq request env =>
    have handled : Writes libraries broker (.request seq request env) (broker.runHandler libraries env seq request).1.entities :=
      runHandler_writes seq request env
    simp only [Broker.next, Broker.handlePackage]
    generalize broker.runHandler libraries env seq request = result at handled ⊢
    obtain ⟨after, outcome⟩ := result
    cases outcome with
    | error error => exact handled
    | ok result =>
      cases result with
      | sendResult package => exact handled
      | addPeer termId package logRecord =>
        have noSession : RaftConsensus.StandardEntityTypes.peer ≠ StandardEntityTypes.clientSession := by decide
        refine appendEntry_writes _ _ true termId logRecord (fun k => ⟨k + 1, rfl⟩) ?_
        exact handled.add (.other 0 rfl noSession)

end

/-! ## What a success says -/

/-- The purpose that a request needs its session to have. -/
def Request.purpose {E : Type} : Request E → Option UserAgentPurpose
  | subscribe .. => some .SUB
  | publish .. => some .PUB
  | readNext .. => some .SUB
  | _ => none

/-- Whether its handler asks that the session is active. -/
def Request.needsActive {E : Type} : Request E → Bool
  | publish .. => true
  | readNext .. => true
  | _ => false

/-- The answer is sent and its status is SUCCESS. -/
def Success {E : Type} (answer : Option (Package E)) : Prop :=
  ∃ package, answer = some package ∧ package.header.status = .SUCCESS

section
variable {E : Type} {libraries : Libraries E} {broker : Broker} {env : RequestEnv} {seq : String}

/-- An error is no success. -/
theorem not_success_error (command : Client.Commands) (error : Errors) :
    ¬ Success (Client.PackageResponseBuilder.error seq command error : Option (Package E)) := by
  rintro ⟨package, sent, status⟩
  obtain ⟨response, -, rfl⟩ := Option.map_eq_some_iff.mp sent
  have different : Client.HeaderStatus.FAIL ≠ Client.HeaderStatus.SUCCESS := by decide
  exact different status

/-- Only a handler that returns is answered with SUCCESS. -/
theorem returned_of_success {request : Request E} (success : Success (broker.handlePackage libraries env seq request).2) :
    ∃ result, (broker.runHandler libraries env seq request).2 = .ok result := by
  unfold Broker.handlePackage at success
  generalize broker.runHandler libraries env seq request = handled at success ⊢
  obtain ⟨after, outcome⟩ := handled
  cases outcome with
  | error error => exact absurd success (not_success_error _ _)
  | ok result => exact ⟨result, rfl⟩

/-- Only what is there is returned. -/
theorem orInternalError_eq_ok {T : Type} {result : Option T} {value : T} :
    orInternalError result = .ok value ↔ result = some value := by
  cases result <;> simp [orInternalError]

theorem ensure_eq_ok {condition : Prop} [Decidable condition] {error : Errors} :
    ensure condition error = .ok () ↔ condition := by
  unfold ensure
  split <;> simp_all

/-- A checked session has the purpose. -/
theorem checkPurpose_eq_ok {session : ClientSession} {purpose : UserAgentPurpose} {error : Errors}
    (checked : Broker.checkPurpose session purpose error = .ok ()) : session.purpose = some purpose := by
  obtain ⟨found, read, same⟩ := bind_eq_ok.mp checked
  rw [orInternalError_eq_ok.mp read, ensure_eq_ok.mp same]

/-- The record that a session is read from. -/
theorem getSession_eq_ok {sessionId : String} {session : ClientSession}
    (found : broker.getSession libraries sessionId = .ok session) :
    ∃ entity, getLastEntityId (some sessionId) broker.entities = some entity ∧
      entity.value.readClientSession libraries.json = some (some session) := by
  obtain ⟨read, got, same⟩ := bind_eq_ok.mp found
  cases read with
  | none => cases same
  | some read =>
    obtain rfl : read = session := Except.ok.inj same
    have got := orInternalError_eq_ok.mp got
    unfold ClientSessionStore.get getEntity at got
    cases last : getLastEntityId (some sessionId) broker.entities with
    | none => simp [last] at got
    | some entity => exact ⟨entity, rfl, by simpa [last] using got⟩

/-- An active session is a session. -/
theorem getSession_of_getActiveSession {sessionId : String} {session : ClientSession}
    (found : broker.getActiveSession libraries sessionId = .ok session) :
    broker.getSession libraries sessionId = .ok session := by
  obtain ⟨session', got, rest⟩ := bind_eq_ok.mp found
  obtain ⟨vpn, -, same⟩ := bind_eq_ok.mp rest
  rw [got, Except.ok.inj same]

/-- The check of the session in the handlers that need a purpose. -/
def Broker.checkSession (libraries : Libraries E) (broker : Broker) (env : RequestEnv) : Request E → Except Errors Unit
  | .subscribe sessionId .. => broker.checkSubscriber libraries sessionId
  | .publish sessionId .. => broker.checkPublisher libraries env sessionId
  | .readNext sessionId .. => broker.checkReader libraries env sessionId
  | _ => .ok ()

/-- What the check has found: a session with the purpose, and, unless it is to subscribe, that it is active. -/
theorem session_of_checkSession {request : Request E} {sessionId : String} (names : request.sessionId = some sessionId)
    {purpose : UserAgentPurpose} (needs : request.purpose = some purpose)
    (checked : broker.checkSession libraries env request = .ok ()) :
    ∃ session, broker.getSession libraries sessionId = .ok session ∧ session.purpose = some purpose ∧
      (request.needsActive → session.isActive (env.utcNow 0)) := by
  cases request with
  | subscribe sessionId' groupId topicFilters =>
    obtain rfl := Option.some.inj names
    obtain ⟨session, found, right⟩ := bind_eq_ok.mp checked
    exact ⟨session, getSession_of_getActiveSession found, (checkPurpose_eq_ok right).trans needs, nofun⟩
  | publish sessionId' topic cloudEvent =>
    obtain rfl := Option.some.inj names
    obtain ⟨session, found, checks⟩ := bind_eq_ok.mp checked
    obtain ⟨⟨⟩, right, active⟩ := bind_eq_ok.mp checks
    exact ⟨session, getSession_of_getActiveSession found, (checkPurpose_eq_ok right).trans needs,
      fun _ => ensure_eq_ok.mp active⟩
  | readNext sessionId' groupId =>
    obtain rfl := Option.some.inj names
    obtain ⟨session, found, checks⟩ := bind_eq_ok.mp checked
    obtain ⟨⟨⟩, right, active⟩ := bind_eq_ok.mp checks
    exact ⟨session, found, (checkPurpose_eq_ok right).trans needs, fun _ => ensure_eq_ok.mp active⟩
  | _ => cases needs

/-- A request whose session does not pass the check is refused, and the node is left as it was. -/
theorem refused_of_checkSession {request : Request E} {error : Errors}
    (failed : broker.checkSession libraries env request = .error error) :
    ∃ error, broker.runHandler libraries env seq request = (broker, .error error) := by
  cases request with
  | subscribe sessionId groupId topicFilters =>
    have failed : broker.checkSubscriber libraries sessionId = .error error := failed
    exact ⟨error, by simp only [Broker.runHandler, Broker.subscribe, failed]⟩
  | publish sessionId topic cloudEvent =>
    have failed : broker.checkPublisher libraries env sessionId = .error error := failed
    simp only [Broker.runHandler, Broker.publish]
    cases libraries.setType cloudEvent topic with
    | none => exact ⟨_, rfl⟩
    | some typed =>
      refine ⟨error, ?_⟩
      simp only [orInternalError, Option.elim_some, failed]
      rfl
  | readNext sessionId groupId =>
    have failed : broker.checkReader libraries env sessionId = .error error := failed
    exact ⟨error, by simp only [Broker.runHandler, Broker.readNext, failed]⟩
  | _ => cases failed

/-- What a handler that returns has found of its session: the purpose that it needs. -/
theorem session_of_returned {request : Request E} {sessionId : String} (names : request.sessionId = some sessionId)
    {result : HandlerResult E} (returned : (broker.runHandler libraries env seq request).2 = .ok result) :
    ∃ session, broker.getSession libraries sessionId = .ok session ∧
      ∀ purpose, request.purpose = some purpose → session.purpose = some purpose := by
  cases needs : request.purpose with
  | some purpose =>
    cases checked : broker.checkSession libraries env request with
    | error error =>
      obtain ⟨error', refused⟩ := refused_of_checkSession checked
      rw [refused] at returned
      cases returned
    | ok =>
      obtain ⟨session, found, right, -⟩ := session_of_checkSession names needs checked
      exact ⟨session, found, fun _ same => right.trans same⟩
  | none =>
    cases request with
    | disconnect clientId sessionId' =>
      obtain rfl := Option.some.inj names
      simp only [Broker.runHandler, Broker.disconnect] at returned
      cases found : broker.getActiveSession libraries sessionId' with
      | error error => simp [found] at returned
      | ok session => exact ⟨session, getSession_of_getActiveSession found, nofun⟩
    | subscribe => cases needs
    | publish => cases needs
    | readNext => cases needs
    | _ => cases names

theorem purposeCode_of_purpose {session : ClientSession} {purpose : UserAgentPurpose}
    (found : session.purpose = some purpose) : session.purposeCode = Client.UserAgentPurpose.code purpose := by
  have same := List.find?_some found
  exact (of_decide_eq_true same).symm

theorem code_injective {purpose other : UserAgentPurpose}
    (same : Client.UserAgentPurpose.code purpose = Client.UserAgentPurpose.code other) : purpose = other := by
  cases purpose <;> cases other <;> first | rfl | exact absurd same (by decide)

/-- The client of a HELLO, and what its purposes are. -/
theorem authenticate_eq_ok {userAgent : UserAgent} {client : Client}
    (authenticated : broker.authenticate libraries userAgent = .ok client) :
    ∃ purposes, client.purposes = some purposes ∧ Client.UserAgentPurpose.code userAgent.purpose ∈ purposes := by
  obtain ⟨vpn, -, rest⟩ := bind_eq_ok.mp authenticated
  obtain ⟨⟨⟩, -, rest⟩ := bind_eq_ok.mp rest
  obtain ⟨found, -, rest⟩ := bind_eq_ok.mp rest
  obtain ⟨client', -, rest⟩ := bind_eq_ok.mp rest
  obtain ⟨purposes, given, rest⟩ := bind_eq_ok.mp rest
  obtain ⟨⟨⟩, checked, same⟩ := bind_eq_ok.mp rest
  obtain rfl : client' = client := Except.ok.inj same
  exact ⟨purposes, orInternalError_eq_ok.mp given, ensure_eq_ok.mp checked⟩

/-- The session of a HELLO: it has a new GUID, the purpose that was asked for, and is active. -/
theorem createSession_eq_ok {userAgent : UserAgent} {session : ClientSession}
    (created : broker.createSession libraries env userAgent = .ok session) :
    session.id = some (env.newGuid 0) ∧
      session.purposeCode = Client.UserAgentPurpose.code userAgent.purpose ∧
      ∃ client, broker.authenticate libraries userAgent = .ok client := by
  obtain ⟨client, authenticated, rest⟩ := bind_eq_ok.mp created
  obtain ⟨expiration, -, rest⟩ := bind_eq_ok.mp rest
  have made := orInternalError_eq_ok.mp rest
  unfold ClientSession.create at made
  dsimp only at made
  split at made
  · obtain rfl := Option.some.inj made
    exact ⟨rfl, rfl, client, authenticated⟩
  · cases made

end

/-! ## Runs that remember -/

/-- What has happened: the node before an event, the event and its answer. -/
structure Answered (E : Type) where
  before : Broker
  event : BrokerEvent E
  answer : Option (Package E)

/-- One event, which is remembered. -/
def Broker.step {E : Type} (libraries : Libraries E) (state : Broker × List (Answered E)) (event : BrokerEvent E) :
    Option (Broker × List (Answered E)) :=
  some ((state.1.next libraries event).1, state.2 ++ [⟨state.1, event, (state.1.next libraries event).2⟩])

section
variable {E : Type} (libraries : Libraries E)

/-- A HELLO that was answered with SUCCESS and this id, with a purpose that the client it authenticated has. -/
def Grants (answered : Answered E) (sessionId : String) (purpose : UserAgentPurpose) : Prop :=
  ∃ seq userAgent env client purposes, answered.event = .request seq (.hello userAgent) env ∧
    answered.answer = some (Client.PackageResponseBuilder.hello seq sessionId) ∧ userAgent.purpose = purpose ∧
    answered.before.authenticate libraries userAgent = .ok client ∧ client.purposes = some purposes ∧
    Client.UserAgentPurpose.code purpose ∈ purposes

/-! ## Granted sessions -/

/-- The session id that an event names. -/
def BrokerEvent.sessionId : BrokerEvent E → Option String
  | .request _ r _ => r.sessionId
  | .append .. => none

/-- The purpose that an event needs its session to have. -/
def BrokerEvent.purpose : BrokerEvent E → Option UserAgentPurpose
  | .request _ r _ => r.purpose
  | .append .. => none

/-- A request that names a session is answered with SUCCESS only after a HELLO has granted the session, with the
purpose that the request needs. -/
def Genuine (state : Broker × List (Answered E)) (event : BrokerEvent E) : Prop :=
  ∀ sessionId ∈ event.sessionId, Success (state.1.next libraries event).2 →
    ∃ answered ∈ state.2, ∃ purpose, Grants libraries answered sessionId purpose ∧
      ∀ needed ∈ event.purpose, purpose = needed

/-- The last record under the session id that a request names, if there is one, is that of a session. -/
def NamesSession (state : Broker × List (Answered E)) (event : BrokerEvent E) : Prop :=
  ∀ sessionId ∈ event.sessionId, ∀ entity ∈ getLastEntityId (some sessionId) state.1.entities,
    entity.entityType = StandardEntityTypes.clientSession

instance (state : Broker × List (Answered E)) (event : BrokerEvent E) : Decidable (NamesSession state event) :=
  inferInstanceAs (Decidable (∀ sessionId ∈ event.sessionId, ∀ entity ∈ getLastEntityId (some sessionId) state.1.entities,
    entity.entityType = StandardEntityTypes.clientSession))

/-- Every record of a session is of one that HELLO has granted. -/
def SessionsGranted (state : Broker × List (Answered E)) : Prop :=
  ∀ entity ∈ state.1.entities.nodeStates, entity.entityType = StandardEntityTypes.clientSession →
    ∃ session sessionId purpose, entity.value = .clientSession session ∧ entity.entityId = some sessionId ∧
      session.id = some sessionId ∧ session.purposeCode = Client.UserAgentPurpose.code purpose ∧
      ∃ answered ∈ state.2, Grants libraries answered sessionId purpose

variable {libraries} {state : Broker × List (Answered E)} {event : BrokerEvent E}

/-- The newest entity with an identifier is one of the entities. -/
theorem mem_of_getLastEntityId {id : Option String} {entities : InMemoryEntities} {entity : Entity}
    (last : getLastEntityId id entities = some entity) : entity ∈ entities.nodeStates ∧ entity.entityId = id :=
  ⟨mem_descending.mp (List.mem_of_find?_eq_some last), by simpa using List.find?_some last⟩

/-- A session that is found in a record of a session was granted. -/
theorem SessionsGranted.found (granted : SessionsGranted libraries state) {sessionId : String} {session : ClientSession}
    (found : state.1.getSession libraries sessionId = .ok session)
    (typed : ∀ entity ∈ getLastEntityId (some sessionId) state.1.entities,
      entity.entityType = StandardEntityTypes.clientSession) :
    session.id = some sessionId ∧ ∃ purpose, session.purposeCode = Client.UserAgentPurpose.code purpose ∧
      ∃ answered ∈ state.2, Grants libraries answered sessionId purpose := by
  obtain ⟨entity, last, read⟩ := getSession_eq_ok found
  obtain ⟨member, id⟩ := mem_of_getLastEntityId last
  obtain ⟨stored, sessionId', purpose, value, id', own, code, grants⟩ := granted entity member (typed entity last)
  obtain rfl : sessionId = sessionId' := Option.some.inj (id.symm.trans id')
  rw [value] at read
  obtain rfl : stored = session := Option.some.inj (Option.some.inj read)
  exact ⟨own, purpose, code, grants⟩

/-- A request that names a granted session is genuine. -/
theorem SessionsGranted.genuine (granted : SessionsGranted libraries state)
    (named : NamesSession state event) : Genuine libraries state event := by
  intro sessionId names success
  cases event with
  | append topic record leads newGuid => cases names
  | request seq request env =>
    obtain ⟨result, returned⟩ := returned_of_success success
    obtain ⟨session, found, needs⟩ := session_of_returned names returned
    obtain ⟨-, purpose, code, answered, remembered, grants⟩ := granted.found found (named sessionId names)
    refine ⟨answered, remembered, purpose, grants, fun needed asked => ?_⟩
    exact code_injective (code.symm.trans (purposeCode_of_purpose (needs needed asked)))

/-- Sessions stay granted. -/
theorem SessionsGranted.step (granted : SessionsGranted libraries state) (named : NamesSession state event)
    {after : Broker × List (Answered E)} (stepped : Broker.step libraries state event = some after) :
    SessionsGranted libraries after := by
  obtain rfl := Option.some.inj stepped
  obtain ⟨added, appended, written⟩ : Writes libraries state.1 event (state.1.next libraries event).1.entities :=
    next_writes event
  intro entity member typed
  rw [appended] at member
  rcases List.mem_append.mp member with old | new
  · obtain ⟨session, sessionId, purpose, value, id, own, code, answered, remembered, grants⟩ := granted entity old typed
    exact ⟨session, sessionId, purpose, value, id, own, code, answered, List.mem_append_left _ remembered, grants⟩
  · cases written entity new with
    | @session seq userAgent env session hello created =>
      obtain ⟨id, code, client, authenticated⟩ := createSession_eq_ok created
      obtain ⟨purposes, given, listed⟩ := authenticate_eq_ok authenticated
      refine ⟨session, env.newGuid 0, userAgent.purpose, rfl, id, id, code, _, List.mem_append_right _ (List.mem_singleton_self _),
        seq, userAgent, env, client, purposes, hello, ?_, rfl, authenticated, given, listed⟩
      simp [hello, Broker.next, Broker.handlePackage, Broker.runHandler, Broker.hello, created]
    | @closed seq clientId sessionId env session disconnect found =>
      obtain ⟨own, purpose, code, answered, remembered, grants⟩ :=
        granted.found (getSession_of_getActiveSession found) (named sessionId (by rw [disconnect]; rfl))
      exact ⟨session.close, sessionId, purpose, rfl, own, own, code, answered, List.mem_append_left _ remembered, grants⟩
    | exchange exchange version =>
      have noSession : StandardEntityTypes.messageExchange ≠ StandardEntityTypes.clientSession := by decide
      exact absurd typed noSession
    | client client version unknown =>
      have noSession : StandardEntityTypes.client ≠ StandardEntityTypes.clientSession := by decide
      exact absurd typed noSession
    | other k named noSession => exact absurd typed noSession

/-- **Sessions cannot be forged**, in every run on a new node in which no request names, as a session id, one under
which a record of another type was written last. -/
theorem genuine_of_namesSession {events : List (BrokerEvent E)}
    (named : Along (Broker.step libraries) NamesSession (Broker.empty, []) events) :
    Along (Broker.step libraries) (Genuine libraries) (Broker.empty, []) events :=
  along_of_invariant (SessionsGranted libraries) (fun _ _ _ granted named stepped => granted.step named stepped)
    (fun _ _ granted named => granted.genuine named) (fun _ member => absurd member (by simp [Broker.empty])) named

end

/-- Libraries for runs with one event: a filter without special characters matches the topics that contain it. -/
def oneEvent : Libraries Unit where
  options := {}
  json := noTexts
  isMatch topicFilter topic := some (decide (topicFilter.toList <:+: topic.toList))
  setType cloudEvent _ := some cloudEvent
  serializeBase64 _ := some "e30="
  deserializeBase64 text := if text = "e30=" then some () else none

/-- The surroundings of the requests of a run: the clock stands, and each draws a GUID of its own. -/
def guidEnv (guid : String) : RequestEnv := { utcNow := fun _ => 0, newGuid := fun k => guid ++ String.ofList (List.replicate k '0') }

/-- A new identifier is no name that does not begin with it. -/
theorem guidEnv_ne {guid name : String} (checked : ¬ guid.toList <+: name.toList) (k : Nat) :
    (guidEnv guid).newGuid k ≠ name := by
  rintro rfl
  exact checked ⟨List.replicate k '0', by simp [guidEnv]⟩

/-- A VPN and a client, as a node is set up. -/
def setUp : List (BrokerEvent Unit) :=
  [.request "1" (.addVpn "vpn") (guidEnv "guid1"),
    .request "2" (.addClient "vpn" "client" [.SUB, .PUB]) (guidEnv "guid2")]

/-- The client says HELLO, publishes and disconnects. -/
def publishingSession : List (BrokerEvent Unit) :=
  setUp ++
    [.request "3" (.hello ⟨"vpn", "client", "", 0, "", "", .PUB, 0, false, none⟩) (guidEnv "guid3"),
      .request "4" (.publish "guid3" "topic" ()) (guidEnv "guid4"),
      .request "5" (.disconnect "client" "guid3") (guidEnv "guid5")]

/-- A session that was granted publishes. -/
theorem genuine_publishingSession :
    Along (Broker.step oneEvent) (Genuine oneEvent) (Broker.empty, []) publishingSession :=
  genuine_of_namesSession (by decide)

/-- Somebody disconnects the session that has the id of the client's record. -/
def forgedSession : List (BrokerEvent Unit) :=
  setUp ++ [.request "3" (.disconnect "client" "vpn_client") (guidEnv "guid3")]

/-- The request is answered with SUCCESS, and nobody has said HELLO. -/
theorem not_genuine_forgedSession :
    ¬ Along (Broker.step oneEvent) (Genuine oneEvent) (Broker.empty, []) forgedSession := by
  intro along
  unfold forgedSession setUp at along
  obtain ⟨-, rest⟩ := along
  obtain ⟨-, rest⟩ := rest _ rfl
  obtain ⟨genuine, -⟩ := rest _ rfl
  obtain ⟨answered, remembered, purpose, ⟨seq, userAgent, env, client, purposes, hello, -⟩, -⟩ :=
    genuine "vpn_client" rfl ⟨Client.PackageResponseBuilder.disconnect "3", by decide, rfl⟩
  simp only [Broker.empty, List.nil_append, List.cons_append, List.mem_cons, List.not_mem_nil, or_false] at remembered
  rcases remembered with rfl | rfl <;> cases hello

end FaasNet.EventMesh.Runtime
