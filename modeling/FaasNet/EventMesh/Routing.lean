import FaasNet.EventMesh.VpnIsolation

/-!
# Routing of messages

A subscription reads the exchange of its filter and writes it again with one more queue, under the next version; a
message goes to the queues of the last version of each exchange whose filter selects its topic. So the exchanges are
the accepted subscriptions, filter by filter, and a queue gets a message once, however many of them lead to it.
-/

namespace FaasNet.EventMesh.Runtime

open FaasNet.Lib FaasNet.RaftConsensus
open IEntityStore (getLastEntityId)
open StandardEntityTypes (queue consumedQueueMessage)

section
variable {E : Type} (libraries : Libraries E)

/-! ## The property -/

/-- The filter is the wildcard or a regular expression that matches the topic. -/
def Selects (topicFilter topic : String) : Prop :=
  topicFilter = filterWildcard ∨ libraries.isMatch topicFilter topic = some true

/-- The filter is the wildcard or a regular expression. -/
def ValidFilter (topicFilter topic : String) : Prop :=
  topicFilter = filterWildcard ∨ (libraries.isMatch topicFilter topic).isSome

/-- The filters of a SUBSCRIBE, each with its queue. -/
def BrokerEvent.subscriptions : BrokerEvent E → List (String × String)
  | .request _ (.subscribe _ groupId topicFilters) _ => topicFilters.map fun topicFilter => (topicFilter, groupId)
  | _ => []

variable {libraries} in
/-- The subscriptions of a SUBSCRIBE that was answered with SUCCESS. -/
def Answered.accepted (answered : Answered E) : List (String × String) :=
  if answered.answer.any fun package => decide (package.header.status = .SUCCESS) then answered.event.subscriptions else []

/-- All subscriptions that were accepted, in order. -/
def accepted (past : List (Answered E)) : List (String × String) := past.flatMap Answered.accepted

/-- `AddEntry` of a peer in this state goes on to the queues. -/
def addsEntry (state : PeerStates) (forceAdd : Bool) : Bool := state = .LEADER || forceAdd

/-- The messages of a queue. -/
def queueRecords (queueName : String) (entities : InMemoryEntities) : List Entity :=
  entities.nodeStates.filter fun entity => entity.entityType = queue queueName

/-- One message has been put into the queue, under the next version. -/
def Receives (queueName message : String) (newGuid : Nat → String) (before after : InMemoryEntities) : Prop :=
  ∃ k, queueRecords queueName after = queueRecords queueName before ++
    [⟨queue queueName, some (newGuid k), QueueStore.messageVersion queueName before, .text message⟩]

/-- A record that a peer appends is put once into each queue that was subscribed with a filter that selects the topic,
and into no other; if the peer does not lead, nothing is put anywhere. -/
def Routes (state : Broker × List (Answered E)) : Prop :=
  ∀ (topic : String) (record : LogRecord String) (newGuid : Nat → String) (peerState : PeerStates) (forceAdd : Bool),
    (∀ made ∈ accepted state.2, ValidFilter libraries made.1 topic) →
      let after := (state.1.appendEntry libraries newGuid (addsEntry peerState forceAdd) topic record).1.entities
      if peerState = .LEADER ∨ forceAdd then
        ∀ queueName,
          ((∃ topicFilter, (topicFilter, queueName) ∈ accepted state.2 ∧ Selects libraries topicFilter topic) →
            Receives queueName record.value newGuid state.1.entities after) ∧
          ((¬ ∃ topicFilter, (topicFilter, queueName) ∈ accepted state.2 ∧ Selects libraries topicFilter topic) →
            queueRecords queueName after = queueRecords queueName state.1.entities)
      else after = state.1.entities

/-- The filters of subscriptions are ids of exchanges only: not of clients, sessions and VPNs, and no GUIDs that were
drawn. A filter has not been subscribed more often than versions, of the type `int`, can count. -/
def FiltersApart (state : Broker × List (Answered E)) (event : BrokerEvent E) : Prop :=
  ∀ made ∈ state.2.flatMap (fun answered => answered.event.subscriptions) ++ event.subscriptions,
    (∀ entity ∈ (state.1.next libraries event).1.entities.nodeStates,
      entity.entityType ≠ StandardEntityTypes.messageExchange → entity.entityId ≠ some made.1) ∧
    (accepted state.2 ++ event.subscriptions).countP (fun other => other.1 = made.1) ≤ 0x80000000

instance (state : Broker × List (Answered E)) (event : BrokerEvent E) : Decidable (FiltersApart libraries state event) :=
  inferInstanceAs (Decidable (∀ made ∈ state.2.flatMap (fun answered => answered.event.subscriptions) ++ event.subscriptions,
    (∀ entity ∈ (state.1.next libraries event).1.entities.nodeStates,
      entity.entityType ≠ StandardEntityTypes.messageExchange → entity.entityId ≠ some made.1) ∧
    (accepted state.2 ++ event.subscriptions).countP (fun other => other.1 = made.1) ≤ 0x80000000))

/-! ## What the exchanges hold -/

/-- How often a filter was subscribed. -/
def filterCount (topicFilter : String) (made : List (String × String)) : Nat := made.countP fun m => m.1 = topicFilter

/-- The exchanges are these subscriptions. -/
structure Recorded (made : List (String × String)) (entities : InMemoryEntities) : Prop where
  only : ∀ entity ∈ entities.nodeStates, entity.entityType = StandardEntityTypes.messageExchange →
    ∃ m ∈ made, entity.entityId = some m.1
  last : ∀ m ∈ made, ∃ exchange : MessageExchange, getLastEntityId (some m.1) entities =
      some ⟨StandardEntityTypes.messageExchange, some m.1, filterCount m.1 made - 1, .messageExchange exchange⟩ ∧
    exchange.topicFilter = some m.1 ∧ ∀ queueName, queueName ∈ exchange.queueNames ↔ (m.1, queueName) ∈ made

theorem recorded_empty : Recorded [] (⟨[]⟩ : InMemoryEntities) :=
  ⟨fun _ member => absurd member List.not_mem_nil, fun _ member => absurd member List.not_mem_nil⟩

end

/-- Where there are no exchanges under an id, and nothing else, nothing is found. -/
theorem Recorded.unused {made : List (String × String)} {entities : InMemoryEntities} (recorded : Recorded made entities)
    {topicFilter : String} (new : ∀ m ∈ made, m.1 ≠ topicFilter)
    (apart : ∀ entity ∈ entities.nodeStates, entity.entityType ≠ StandardEntityTypes.messageExchange →
      entity.entityId ≠ some topicFilter) :
    getLastEntityId (some topicFilter) entities = none := by
  refine find?_descending_eq_none.mpr fun entity member named => ?_
  have named : entity.entityId = some topicFilter := of_decide_eq_true named
  by_cases typed : entity.entityType = StandardEntityTypes.messageExchange
  · obtain ⟨m, listed, id⟩ := recorded.only entity member typed
    exact new m listed (Option.some.inj (id.symm.trans named))
  · exact apart entity member typed named

/-- A subscription adds its queue to those of the filter. -/
theorem mem_subscribed {queueName topicFilter name : String} {found : Option MessageExchange} :
    name ∈ (subscribed queueName topicFilter found).queueNames ↔
      name ∈ found.elim [] (·.queueNames) ∨ name = queueName := by
  have same : (found.getD { topicFilter := some topicFilter }).queueNames = found.elim [] (·.queueNames) := by
    cases found <;> rfl
  simp only [subscribed]
  split
  next already =>
    rw [same] at already ⊢
    constructor
    · exact .inl
    · rintro (listed | rfl)
      · exact listed
      · exact already
  next => simp [same]

/-- What a subscription finds: the exchange of the filter, or nothing if it is the first one. -/
theorem Recorded.found {made : List (String × String)} {entities : InMemoryEntities} (recorded : Recorded made entities)
    (json : JsonReader) (topicFilter : String)
    (apart : ∀ entity ∈ entities.nodeStates, entity.entityType ≠ StandardEntityTypes.messageExchange →
      entity.entityId ≠ some topicFilter)
    (few : filterCount topicFilter made < 0x80000000) :
    ∃ found : Option MessageExchange, MessageExchangeStore.get json (some topicFilter) entities = some found ∧
      (∀ exchange ∈ found, exchange.topicFilter = some topicFilter) ∧
      (∀ name, name ∈ found.elim [] (·.queueNames) ↔ (topicFilter, name) ∈ made) ∧
      (∀ last ∈ getLastEntityId (some topicFilter) entities, last.entityVersion < filterCount topicFilter made) ∧
      versionAfter (getLastEntityId (some topicFilter) entities) = filterCount topicFilter made := by
  unfold MessageExchangeStore.get getEntity
  by_cases known : ∃ m ∈ made, m.1 = topicFilter
  · obtain ⟨m, listed, rfl⟩ := known
    obtain ⟨exchange, last, named, names⟩ := recorded.last m listed
    have some : 0 < filterCount m.1 made := List.countP_pos_iff.mpr ⟨m, listed, by simp⟩
    rw [last]
    refine ⟨exchange, rfl, ?_, names, ?_, ?_⟩
    · rintro _ ⟨⟩
      exact named
    · rintro _ ⟨⟩
      dsimp only
      omega
    · simp only [versionAfter, Option.elim_some]
      rw [nextVersion_eq (by omega) (by omega)]
      omega
  · have new : ∀ m ∈ made, m.1 ≠ topicFilter := fun m listed same => known ⟨m, listed, same⟩
    have none : filterCount topicFilter made = 0 := List.countP_eq_zero.mpr fun m listed => by simpa using new m listed
    rw [recorded.unused new apart]
    refine ⟨.none, rfl, ?_, fun name => ?_, ?_, ?_⟩
    · rintro _ ⟨⟩
    · simpa using fun listed => new _ listed rfl
    · rintro _ ⟨⟩
    · simp [versionAfter, none]

/-- **A subscription is recorded.** -/
theorem Recorded.subscribe {made : List (String × String)} {entities : InMemoryEntities} (recorded : Recorded made entities)
    (json : JsonReader) (topicFilter queueName : String)
    (apart : ∀ entity ∈ entities.nodeStates, entity.entityType ≠ StandardEntityTypes.messageExchange →
      entity.entityId ≠ some topicFilter)
    (few : filterCount topicFilter made < 0x80000000) :
    ∃ found, MessageExchangeStore.get json (some topicFilter) entities = some found ∧
      Recorded (made ++ [(topicFilter, queueName)])
        (MessageExchangeStore.add (subscribed queueName topicFilter found) entities) := by
  obtain ⟨found, got, own, queues, above, version⟩ := recorded.found json topicFilter apart few
  have named : (subscribed queueName topicFilter found).topicFilter = some topicFilter := by
    cases found with
    | none => simp [subscribed]
    | some exchange =>
      simp only [subscribed, Option.getD_some]
      split <;> exact own exchange rfl
  refine ⟨found, got, ?_⟩
  unfold MessageExchangeStore.add addEntity
  rw [named, version]
  constructor
  case only =>
    intro entity member typed
    rcases List.mem_append.mp member with old | new
    · obtain ⟨m, listed, id⟩ := recorded.only entity old typed
      exact ⟨m, List.mem_append_left _ listed, id⟩
    · obtain rfl := List.mem_singleton.mp new
      exact ⟨(topicFilter, queueName), List.mem_append_right _ (List.mem_singleton_self _), rfl⟩
  case last =>
    intro m listed
    by_cases same : m.1 = topicFilter
    · rw [same]
      refine ⟨subscribed queueName topicFilter found, ?_, named, fun name => ?_⟩
      · rw [LawfulEntityStore.last_add rfl above]
        simp [filterCount]
      · rw [mem_subscribed, queues, List.mem_append, List.mem_singleton, Prod.mk.injEq]
        simp
    · have other : m ∈ made := by
        rcases List.mem_append.mp listed with old | new
        · exact old
        · exact absurd (congrArg Prod.fst (List.mem_singleton.mp new)) same
      obtain ⟨exchange, last, own, names⟩ := recorded.last m other
      refine ⟨exchange, ?_, own, fun name => ?_⟩
      · rw [LawfulEntityStore.last_add_other entities (by simpa using Ne.symm same), last]
        simp [filterCount, Ne.symm same]
      · rw [names, List.mem_append, List.mem_singleton, Prod.mk.injEq]
        simp [same]

section
variable {E : Type} {libraries : Libraries E}

/-- A SUBSCRIBE records its filters one after the other. -/
theorem Recorded.addMessageExchanges {made : List (String × String)} {entities : InMemoryEntities}
    (recorded : Recorded made entities) (queueName : String) (topicFilters : List String)
    (apart : ∀ topicFilter ∈ topicFilters, ∀ entity ∈ entities.nodeStates,
      entity.entityType ≠ StandardEntityTypes.messageExchange → entity.entityId ≠ some topicFilter)
    (few : ∀ topicFilter ∈ topicFilters,
      filterCount topicFilter (made ++ topicFilters.map fun topicFilter => (topicFilter, queueName)) ≤ 0x80000000) :
    (Broker.addMessageExchanges libraries queueName topicFilters entities).2 = true ∧
      Recorded (made ++ topicFilters.map fun topicFilter => (topicFilter, queueName))
        (Broker.addMessageExchanges libraries queueName topicFilters entities).1 := by
  induction topicFilters generalizing made entities with
  | nil => exact ⟨rfl, by simpa [Broker.addMessageExchanges] using recorded⟩
  | cons topicFilter topicFilters ih =>
    have split : made ++ (topicFilter :: topicFilters).map (fun topicFilter => (topicFilter, queueName)) =
        (made ++ [(topicFilter, queueName)]) ++ topicFilters.map fun topicFilter => (topicFilter, queueName) := by simp
    rw [split] at few ⊢
    have room : filterCount topicFilter made < 0x80000000 := by
      have all := few topicFilter List.mem_cons_self
      unfold filterCount at all ⊢
      rw [List.append_assoc, List.countP_append, List.singleton_append, List.countP_cons_of_pos (by simp)] at all
      omega
    obtain ⟨found, got, next⟩ :=
      recorded.subscribe libraries.json topicFilter queueName (apart topicFilter List.mem_cons_self) room
    rw [addMessageExchanges_cons got]
    refine ih next (fun other listed entity member typed => ?_) fun other listed => few other (List.mem_cons_of_mem _ listed)
    rcases List.mem_append.mp member with old | new
    · exact apart other (List.mem_cons_of_mem _ listed) entity old typed
    · exact absurd (by rw [List.mem_singleton.mp new]) typed

/-! ## What is not recorded -/

/-- Records were added, and none of this type. -/
def AddsNo (entityType : String) (before after : InMemoryEntities) : Prop :=
  ∃ added, after.nodeStates = before.nodeStates ++ added ∧ ∀ entity ∈ added, entity.entityType ≠ entityType

variable {entityType : String} {before middle after : InMemoryEntities}

theorem AddsNo.refl : AddsNo entityType before before :=
  ⟨[], by simp, fun _ member => absurd member List.not_mem_nil⟩

theorem AddsNo.trans (first : AddsNo entityType before middle) (second : AddsNo entityType middle after) :
    AddsNo entityType before after := by
  obtain ⟨some, appended, others⟩ := first
  obtain ⟨more, appended', others'⟩ := second
  refine ⟨some ++ more, by rw [appended', appended, List.append_assoc], fun entity member => ?_⟩
  exact (List.mem_append.mp member).elim (others entity) (others' entity)

theorem AddsNo.one {entity : Entity} (written : String) (other : written ≠ entityType) (typed : entity.entityType = written) :
    AddsNo entityType before (IEntityStore.add entity before) :=
  ⟨[entity], rfl, by simpa [typed] using other⟩

theorem appendMessage_addsNo (notQueue : ∀ queueName, queue queueName ≠ entityType) (message : String)
    (queueNames : List String) (newGuid : Nat → String) :
    AddsNo entityType before (appendMessage message newGuid queueNames before) := by
  induction queueNames generalizing before newGuid with
  | nil => exact .refl
  | cons queueName queueNames ih => exact (AddsNo.one _ (notQueue queueName) rfl).trans (ih _)

theorem appendEntry_addsNo (notQueue : ∀ queueName, queue queueName ≠ entityType) (broker : Broker) (newGuid : Nat → String)
    (leads : Bool) (topic : String) (record : LogRecord String) :
    AddsNo entityType broker.entities (broker.appendEntry libraries newGuid leads topic record).1.entities := by
  unfold Broker.appendEntry
  dsimp only
  split
  · cases getQueueNames libraries topic broker.entities with
    | none => exact .refl
    | some queueNames => exact appendMessage_addsNo notQueue _ _ _
  · exact .refl

theorem queue_ne_messageExchange (queueName : String) : queue queueName ≠ StandardEntityTypes.messageExchange :=
  append_ne (by decide) (by decide) queueName

theorem consumedQueueMessage_ne_messageExchange (queueName : String) :
    consumedQueueMessage queueName ≠ StandardEntityTypes.messageExchange :=
  append_ne (by decide) (by decide) queueName

/-- Only SUBSCRIBE writes exchanges. -/
theorem runHandler_addsNo (broker : Broker) (env : RequestEnv) (seq : String) (request : Request E)
    (other : ∀ sessionId groupId topicFilters, request ≠ .subscribe sessionId groupId topicFilters) :
    AddsNo StandardEntityTypes.messageExchange broker.entities (broker.runHandler libraries env seq request).1.entities := by
  cases request with
  | subscribe sessionId groupId topicFilters => exact absurd rfl (other sessionId groupId topicFilters)
  | publish => exact .refl
  | readTopic => exact .refl
  | hello userAgent =>
    simp only [Broker.runHandler, Broker.hello]
    split
    · exact .refl
    · exact .one StandardEntityTypes.clientSession (by decide) rfl
  | readNext sessionId groupId =>
    simp only [Broker.runHandler, Broker.readNext, QueueStore.dequeue]
    split
    · exact .refl
    split
    · exact .refl
    · exact .one _ (consumedQueueMessage_ne_messageExchange groupId) rfl
  | disconnect clientId sessionId =>
    simp only [Broker.runHandler, Broker.disconnect]
    split
    · exact .refl
    · exact .one StandardEntityTypes.clientSession (by decide) rfl
  | addVpn vpn =>
    simp only [Broker.runHandler, Broker.addVpn]
    split
    · exact .refl
    · exact .refl
    · exact .one StandardEntityTypes.vpn (by decide) rfl
  | addClient vpn clientId purposes =>
    simp only [Broker.runHandler, Broker.addClient]
    split
    · exact .refl
    · exact .refl
    split
    · exact .refl
    · exact .refl
    · exact .one StandardEntityTypes.client (by decide) rfl
  | addBridge sourceVpn targetVpn targetUrn targetPort targetClientId =>
    simp only [Broker.runHandler, Broker.addBridge]
    split
    · exact .refl
    split
    · exact .refl
    split
    · exact .refl
    · exact .refl
    · exact .one StandardEntityTypes.bridgeServer (by decide) rfl

theorem handlePackage_addsNo (broker : Broker) (env : RequestEnv) (seq : String) (request : Request E)
    (other : ∀ sessionId groupId topicFilters, request ≠ .subscribe sessionId groupId topicFilters) :
    AddsNo StandardEntityTypes.messageExchange broker.entities (broker.handlePackage libraries env seq request).1.entities := by
  have handled : AddsNo StandardEntityTypes.messageExchange broker.entities
      (broker.runHandler libraries env seq request).1.entities := runHandler_addsNo broker env seq request other
  unfold Broker.handlePackage
  generalize broker.runHandler libraries env seq request = result at handled ⊢
  obtain ⟨next, outcome⟩ := result
  cases outcome with
  | error error => exact handled
  | ok result =>
    cases result with
    | sendResult package => exact handled
    | addPeer termId package logRecord =>
      have peer : AddsNo StandardEntityTypes.messageExchange next.entities
          (next.addPeer (env.newGuid 0) termId).entities := .one RaftConsensus.StandardEntityTypes.peer (by decide) rfl
      exact (handled.trans peer).trans (appendEntry_addsNo queue_ne_messageExchange _ _ _ _ _)

/-- Other records leave the exchanges as they are. -/
theorem Recorded.addsNo {made : List (String × String)} (recorded : Recorded made before)
    (adds : AddsNo StandardEntityTypes.messageExchange before after)
    (apart : ∀ m ∈ made, ∀ entity ∈ after.nodeStates, entity.entityType ≠ StandardEntityTypes.messageExchange →
      entity.entityId ≠ some m.1) : Recorded made after := by
  obtain ⟨added, appended, others⟩ := adds
  constructor
  case only =>
    intro entity member typed
    rw [appended] at member
    rcases List.mem_append.mp member with old | new
    · exact recorded.only entity old typed
    · exact absurd typed (others entity new)
  case last =>
    intro m listed
    obtain ⟨exchange, last, own, names⟩ := recorded.last m listed
    refine ⟨exchange, ?_, own, names⟩
    rw [← last]
    unfold getLastEntityId instIEntityStoreInMemoryEntities
    dsimp only
    rw [appended]
    refine find?_descending_append fun entity new named => ?_
    exact apart m listed entity (by rw [appended]; exact List.mem_append_right _ new) (others entity new)
      (of_decide_eq_true named)

/-! ## Steps -/

/-- What is accepted was asked for. -/
theorem Answered.accepted_subset {answered : Answered E} {m : String × String} (member : m ∈ answered.accepted) :
    m ∈ answered.event.subscriptions := by
  unfold Answered.accepted at member
  split at member
  · exact member
  · cases member

theorem Answered.accepted_of_other {answered : Answered E} (none : answered.event.subscriptions = []) :
    answered.accepted = [] := by
  unfold Answered.accepted
  rw [none, ite_self]

theorem Answered.accepted_of_success {answered : Answered E} (success : Success answered.answer) :
    answered.accepted = answered.event.subscriptions := by
  obtain ⟨package, sent, status⟩ := success
  refine if_pos ?_
  rw [sent]
  exact decide_eq_true status

theorem Answered.accepted_of_failure {answered : Answered E} (failure : ¬ Success answered.answer) :
    answered.accepted = [] := by
  refine if_neg fun success => failure ?_
  obtain ⟨package, sent, status⟩ := (Option.any_eq_true _ _).mp success
  exact ⟨package, sent, of_decide_eq_true status⟩

/-- What is accepted in the end is added to what was accepted before. -/
theorem accepted_concat (past : List (Answered E)) (answered : Answered E) :
    accepted (past ++ [answered]) = accepted past ++ answered.accepted := by
  simp [accepted]

/-- An event that is no SUBSCRIBE. -/
theorem next_addsNo (broker : Broker) (event : BrokerEvent E)
    (other : ∀ seq sessionId groupId topicFilters env, event ≠ .request seq (.subscribe sessionId groupId topicFilters) env) :
    AddsNo StandardEntityTypes.messageExchange broker.entities (broker.next libraries event).1.entities := by
  cases event with
  | append topic record leads newGuid => exact appendEntry_addsNo queue_ne_messageExchange broker _ _ _ _
  | request seq request env =>
    exact handlePackage_addsNo broker env seq request fun sessionId groupId topicFilters same =>
      other seq sessionId groupId topicFilters env (by rw [same])

/-- Only a subscription asks for some. -/
theorem subscriptions_of_other {event : BrokerEvent E}
    (other : ∀ seq sessionId groupId topicFilters env, event ≠ .request seq (.subscribe sessionId groupId topicFilters) env) :
    event.subscriptions = [] := by
  cases event with
  | append => rfl
  | request seq request env =>
    cases request with
    | subscribe sessionId groupId topicFilters => exact absurd rfl (other seq sessionId groupId topicFilters env)
    | _ => rfl

variable {state : Broker × List (Answered E)} {event : BrokerEvent E}

/-- The records of a node stay. -/
theorem mem_next {broker : Broker} {entity : Entity} (member : entity ∈ broker.entities.nodeStates) :
    entity ∈ (broker.next libraries event).1.entities.nodeStates := by
  obtain ⟨added, appended, -⟩ : Writes libraries broker event (broker.next libraries event).1.entities := next_writes event
  rw [appended]
  exact List.mem_append_left _ member

/-- A subscription whose filters are apart is recorded. -/
theorem Recorded.subscribed {seq sessionId groupId : String} {topicFilters : List String} {env : RequestEnv}
    (recorded : Recorded (accepted state.2) state.1.entities)
    (apart : FiltersApart libraries state (.request seq (.subscribe sessionId groupId topicFilters) env)) :
    let event : BrokerEvent E := .request seq (.subscribe sessionId groupId topicFilters) env
    Recorded (accepted state.2 ++ Answered.accepted ⟨state.1, event, (state.1.next libraries event).2⟩)
      (state.1.next libraries event).1.entities := by
  intro event
  have filter {topicFilter : String} (listed : topicFilter ∈ topicFilters) :
      (topicFilter, groupId) ∈ state.2.flatMap (fun answered => answered.event.subscriptions) ++ event.subscriptions :=
    List.mem_append_right _ (List.mem_map_of_mem listed)
  have written : (Broker.addMessageExchanges libraries groupId topicFilters state.1.entities).2 = true ∧
      Recorded (accepted state.2 ++ event.subscriptions)
        (Broker.addMessageExchanges libraries groupId topicFilters state.1.entities).1 := by
    refine recorded.addMessageExchanges groupId topicFilters (fun topicFilter listed entity member => ?_) fun topicFilter listed => ?_
    · exact (apart _ (filter listed)).1 entity (mem_next member)
    · exact (apart _ (filter listed)).2
  cases checked : state.1.checkSubscriber libraries sessionId with
  | error error =>
    have refused : state.1.next libraries event =
        (state.1, Client.PackageResponseBuilder.error seq .SUBSCRIBE_REQUEST error) := by
      simp only [event, Broker.next, Broker.handlePackage, Broker.runHandler, Broker.subscribe, checked, Request.command]
    have failure : ¬ Success (state.1.next libraries event).2 := by
      rw [refused]
      exact not_success_error (E := E) .SUBSCRIBE_REQUEST error
    rw [Answered.accepted_of_failure failure, refused, List.append_nil]
    exact recorded
  | ok =>
    have answered : state.1.next libraries event = ({ state.1 with
        entities := (Broker.addMessageExchanges libraries groupId topicFilters state.1.entities).1 },
        some (Client.PackageResponseBuilder.subscription seq groupId)) := by
      simp only [event, Broker.next, Broker.handlePackage, Broker.runHandler, Broker.subscribe, checked, written.1, if_true]
    rw [Answered.accepted_of_success ⟨_, congrArg Prod.snd answered, rfl⟩, answered]
    exact written.2

/-- What is accepted stays recorded. -/
theorem Recorded.step (recorded : Recorded (accepted state.2) state.1.entities) (apart : FiltersApart libraries state event)
    {after : Broker × List (Answered E)} (stepped : Broker.step libraries state event = some after) :
    Recorded (accepted after.2) after.1.entities := by
  obtain rfl := Option.some.inj stepped
  rw [accepted_concat]
  by_cases subscribes : ∃ seq sessionId groupId topicFilters env, event = .request seq (.subscribe sessionId groupId topicFilters) env
  · obtain ⟨seq, sessionId, groupId, topicFilters, env, rfl⟩ := subscribes
    exact recorded.subscribed apart
  · have other : ∀ seq sessionId groupId topicFilters env,
        event ≠ .request seq (.subscribe sessionId groupId topicFilters) env :=
      fun seq sessionId groupId topicFilters env same => subscribes ⟨seq, sessionId, groupId, topicFilters, env, same⟩
    rw [Answered.accepted_of_other (subscriptions_of_other other), List.append_nil]
    refine recorded.addsNo (next_addsNo state.1 event other) fun m made => (apart m (List.mem_append_left _ ?_)).1
    obtain ⟨answered, remembered, accepted⟩ := List.mem_flatMap.mp made
    exact List.mem_flatMap.mpr ⟨answered, remembered, Answered.accepted_subset accepted⟩

/-! ## Where a message goes -/

/-- The exchanges are given by the last record of each filter that was subscribed. -/
theorem Recorded.mem_getAllLastEntityTypes {made : List (String × String)} {entities : InMemoryEntities}
    (recorded : Recorded made entities) {entity : Entity} :
    entity ∈ entities.getAllLastEntityTypes StandardEntityTypes.messageExchange ↔
      ∃ m ∈ made, getLastEntityId (some m.1) entities = some entity := by
  have typed {m : String × String} (listed : m ∈ made) : ∃ last, getLastEntityId (some m.1) entities = some last ∧
      last.entityType = StandardEntityTypes.messageExchange ∧
      ((descending Entity.entityVersion (entities.nodeStates.filter fun ns =>
        ns.entityType = StandardEntityTypes.messageExchange)).find? fun ns => ns.entityId = some m.1) = some last := by
    obtain ⟨exchange, last, -⟩ := recorded.last m listed
    exact ⟨_, last, rfl, find?_descending_filter_of_holds last (by simp)⟩
  unfold InMemoryEntities.getAllLastEntityTypes
  rw [mem_firstOfEach]
  constructor
  · intro found
    have inside := mem_descending.mp (List.mem_of_find?_eq_some found)
    obtain ⟨stored, isExchange⟩ := List.mem_filter.mp inside
    obtain ⟨m, listed, id⟩ := recorded.only entity stored (of_decide_eq_true isExchange)
    obtain ⟨last, known, -, first⟩ := typed listed
    rw [id, first] at found
    exact ⟨m, listed, known.trans found⟩
  · rintro ⟨m, listed, known⟩
    obtain ⟨last, known', -, first⟩ := typed listed
    obtain rfl : entity = last := Option.some.inj (known.symm.trans known')
    rw [(mem_of_getLastEntityId known).2]
    exact first

/-- An exchange with a valid filter is matched without an exception. -/
theorem isMatch_of_valid {exchange : MessageExchange} {topicFilter topic : String}
    (own : exchange.topicFilter = some topicFilter) (valid : ValidFilter libraries topicFilter topic) :
    ∃ found, exchange.isMatch libraries topic = some found ∧ (found = true ↔ Selects libraries topicFilter topic) := by
  unfold MessageExchange.isMatch Selects
  simp only [own]
  split
  next wildcard => exact ⟨true, rfl, by simp [wildcard]⟩
  next other =>
    obtain ⟨found, matched⟩ := Option.isSome_iff_exists.mp (valid.resolve_left other)
    exact ⟨found, matched, by simp [matched, other]⟩

/-- The queues of a topic are those subscribed with a filter that selects it, each once. -/
theorem Recorded.getQueueNames {made : List (String × String)} {entities : InMemoryEntities} (recorded : Recorded made entities)
    {topic : String} (valid : ∀ m ∈ made, ValidFilter libraries m.1 topic) :
    ∃ queueNames, Runtime.getQueueNames libraries topic entities = some queueNames ∧ queueNames.Nodup ∧
      ∀ queueName, queueName ∈ queueNames ↔
        ∃ topicFilter, (topicFilter, queueName) ∈ made ∧ Selects libraries topicFilter topic := by
  have given {entity : Entity} {m : String × String} (listed : m ∈ made)
      (last : getLastEntityId (some m.1) entities = some entity) :
      ∃ names, queueNamesOf libraries topic entity = some names ∧
        ∀ queueName, queueName ∈ names ↔ (m.1, queueName) ∈ made ∧ Selects libraries m.1 topic := by
    obtain ⟨exchange, last', own, names⟩ := recorded.last m listed
    obtain rfl := Option.some.inj (last.symm.trans last')
    obtain ⟨found, matched, selects⟩ := isMatch_of_valid own (valid m listed)
    refine ⟨if found then exchange.queueNames else [], ?_, fun queueName => ?_⟩
    · simp only [queueNamesOf, EntityValue.readMessageExchange, matched, Option.map_some]
    · rw [← selects, ← names]
      cases found <;> simp
  have each : ∀ entity ∈ entities.getAllLastEntityTypes StandardEntityTypes.messageExchange,
      queueNamesOf libraries topic entity = some ((queueNamesOf libraries topic entity).getD []) := by
    intro entity member
    obtain ⟨m, listed, last⟩ := recorded.mem_getAllLastEntityTypes.mp member
    obtain ⟨names, some, -⟩ := given listed last
    rw [some, Option.getD_some]
  refine ⟨_, by rw [Runtime.getQueueNames, mapM_of_forall each, Option.map_some], nodup_eraseDups _, fun queueName => ?_⟩
  rw [List.mem_eraseDups, List.mem_flatten]
  constructor
  · rintro ⟨names, among, inside⟩
    obtain ⟨entity, member, rfl⟩ := List.mem_map.mp among
    obtain ⟨m, listed, last⟩ := recorded.mem_getAllLastEntityTypes.mp member
    obtain ⟨names, some, queues⟩ := given listed last
    rw [some, Option.getD_some] at inside
    exact ⟨m.1, (queues queueName).mp inside⟩
  · rintro ⟨topicFilter, listed, selects⟩
    obtain ⟨exchange, last, -⟩ := recorded.last _ listed
    obtain ⟨names, some, queues⟩ := given listed last
    refine ⟨names, List.mem_map.mpr ⟨_, recorded.mem_getAllLastEntityTypes.mpr ⟨_, listed, last⟩, ?_⟩,
      (queues queueName).mpr ⟨listed, selects⟩⟩
    rw [some, Option.getD_some]

/-! ## What the queues get -/

/-- A message is added to the records of its queue only. -/
theorem queueRecords_add {queueName other message entityId : String} (entities : InMemoryEntities) :
    queueRecords queueName (QueueStore.add other message entityId entities) =
      queueRecords queueName entities ++ if other = queueName then
        [⟨queue queueName, some entityId, QueueStore.messageVersion queueName entities, .text message⟩] else [] := by
  have typed : queue other = queue queueName ↔ other = queueName := queue_inj
  unfold queueRecords QueueStore.add INodeStateStore.add instINodeStateStoreInMemoryEntities IEntityStore.add
    instIEntityStoreInMemoryEntities
  dsimp only
  rw [List.filter_append]
  congr 1
  split
  next same =>
    subst same
    simp
  next different => simp [typed, different]

/-- The version of the next message depends on the messages of the queue only. -/
theorem messageVersion_congr {queueName : String} {left right : InMemoryEntities}
    (same : queueRecords queueName left = queueRecords queueName right) :
    QueueStore.messageVersion queueName left = QueueStore.messageVersion queueName right := by
  have last (entities : InMemoryEntities) : entities.getLastEntityType (queue queueName) =
      (descending Entity.entityVersion (queueRecords queueName entities)).head? := by
    rw [InMemoryEntities.getLastEntityType, ← List.head?_filter, filter_descending, queueRecords]
  have found : INodeStateStore.getLastEntityType (queue queueName) left =
      INodeStateStore.getLastEntityType (queue queueName) right := by
    show (left.getLastEntityType _).map _ = (right.getLastEntityType _).map _
    rw [last, last, same]
  unfold QueueStore.messageVersion
  rw [found]

/-- **Each queue gets the message once, and no other queue gets anything.** -/
theorem queueRecords_appendMessage (queueName message : String) {queueNames : List String} (once : queueNames.Nodup)
    (newGuid : Nat → String) (entities : InMemoryEntities) :
    (queueName ∈ queueNames →
      Receives queueName message newGuid entities (appendMessage message newGuid queueNames entities)) ∧
    (queueName ∉ queueNames →
      queueRecords queueName (appendMessage message newGuid queueNames entities) = queueRecords queueName entities) := by
  induction queueNames generalizing newGuid entities with
  | nil => exact ⟨nofun, fun _ => rfl⟩
  | cons other queueNames ih =>
    obtain ⟨notAgain, once⟩ := List.nodup_cons.mp once
    obtain ⟨among, beyond⟩ := ih once (fun k => newGuid (k + 1)) (QueueStore.add other message (newGuid 0) entities)
    unfold Receives at among ⊢
    rw [appendMessage]
    by_cases same : other = queueName
    · subst same
      refine ⟨fun _ => ⟨0, ?_⟩, fun outside => absurd List.mem_cons_self outside⟩
      rw [beyond notAgain, queueRecords_add, if_pos rfl]
    · have kept : queueRecords queueName (QueueStore.add other message (newGuid 0) entities) =
          queueRecords queueName entities := by
        rw [queueRecords_add, if_neg same, List.append_nil]
      rw [kept, messageVersion_congr kept] at among
      rw [kept] at beyond
      refine ⟨fun inside => ?_, fun outside => beyond fun inside => outside (List.mem_cons_of_mem other inside)⟩
      obtain ⟨k, appended⟩ := among ((List.mem_cons.mp inside).resolve_left (Ne.symm same))
      exact ⟨k + 1, appended⟩

/-- Where the accepted subscriptions are recorded, records go to their queues. -/
theorem Recorded.routes (recorded : Recorded (accepted state.2) state.1.entities) : Routes libraries state := by
  intro topic record newGuid peerState forceAdd valid after
  obtain ⟨queueNames, got, once, subscribed⟩ := recorded.getQueueNames valid
  split
  next adds =>
    have leads : addsEntry peerState forceAdd = true := by simpa [addsEntry] using adds
    have entities : after = appendMessage record.value newGuid queueNames state.1.entities := by
      simp only [after, Broker.appendEntry, leads, got, if_true]
    intro queueName
    obtain ⟨among, beyond⟩ :=
      queueRecords_appendMessage queueName record.value once newGuid state.1.entities
    rw [entities, ← subscribed]
    exact ⟨among, beyond⟩
  next refuses =>
    have follows : addsEntry peerState forceAdd = false := by simpa [addsEntry] using refuses
    simp only [after, Broker.appendEntry, follows, Bool.false_eq_true, if_false]

/-- In every run the accepted subscriptions are recorded. -/
theorem recorded_of_filtersApart {events : List (BrokerEvent E)}
    (apart : Along (Broker.step libraries) (FiltersApart libraries) (Broker.empty, []) events) :
    Always (Broker.step libraries) (fun state => Recorded (accepted state.2) state.1.entities) (Broker.empty, []) events :=
  always_of_along (fun _ _ _ recorded apart stepped => recorded.step apart stepped) recorded_empty apart

/-- **Messages go where they were subscribed to.** In every run on a new node whose filters are ids of exchanges only,
in every state reached. -/
theorem routes_of_filtersApart {events : List (BrokerEvent E)}
    (apart : Along (Broker.step libraries) (FiltersApart libraries) (Broker.empty, []) events) :
    Always (Broker.step libraries) (Routes libraries) (Broker.empty, []) events :=
  (recorded_of_filtersApart apart).imp fun _ => Recorded.routes

end

/-- A client subscribes with two filters, and again with one of them. -/
def subscribedTwice : List (BrokerEvent Unit) :=
  setUp ++
    [.request "3" (.hello ⟨"vpn", "client", "", 0, "", "", .SUB, 0, false, none⟩) (guidEnv "guid3"),
      .request "4" (.subscribe "guid3" "group" ["topic", "top"]) (guidEnv "guid4"),
      .request "5" (.subscribe "guid3" "others" ["topic"]) (guidEnv "guid5")]

/-- Both groups that are subscribed get the records of the topic. -/
theorem routes_subscribedTwice :
    Always (Broker.step oneEvent) (Routes oneEvent) (Broker.empty, []) subscribedTwice :=
  routes_of_filtersApart (by decide)

end FaasNet.EventMesh.Runtime
