import FaasNet.Lib.Lists
import FaasNet.Lib.Noninterference
import FaasNet.EventMesh.Sessions

/-!
# Isolation of VPNs

A VPN is asked for when a session is made, and by nothing after that: topics, filters, queues and logs are found by
the names that clients give them. The sessions of one VPN are not disturbed by those of another as long as the names
they use are apart. What the sessions of a VPN can see of a node is then the records under their names, and nobody
else writes there.
-/

namespace FaasNet.EventMesh.Runtime

open FaasNet.Lib FaasNet.RaftConsensus
open IEntityStore (getLastEntityId)
open INodeStateStore (getSpecificEntityType)
open StandardEntityTypes (queue consumedQueueMessage)
open FaasNet.EventMesh.Client (Package UserAgent)

/-! ## The property -/

/-- An event and its VPN: that of the session a request comes from, or that published the appended message. -/
structure VpnEvent (E : Type) where
  vpn : String
  event : BrokerEvent E

section
variable {E : Type} (libraries : Libraries E)

/-- The node after an event of a VPN, and the answer. -/
def Broker.nextOf (broker : Broker) (e : VpnEvent E) : Broker × Option (Package E) := broker.next libraries e.event

/-- The sessions of a VPN are answered as they are when there are only events of that VPN. -/
def Isolated (vpn : String) (broker : Broker) (events : List (VpnEvent E)) : Prop :=
  NotInterfered (Broker.nextOf libraries) (fun e => e.vpn = vpn) broker events

/-- The session that is found under the id is of the VPN. -/
def sessionOf (vpn sessionId : String) (broker : Broker) : Bool :=
  (broker.getSession libraries sessionId).toOption.any fun session => session.vpn = some vpn

/-- HELLO, SUBSCRIBE, PUBLISH, READ_NEXT and READ_TOPIC by sessions of the VPN. READ_TOPIC names no session. -/
def ofVpn (broker : Broker) (e : VpnEvent E) : Bool :=
  match e.event with
  | .request _ (.hello userAgent) _ => userAgent.vpn = e.vpn
  | .request _ (.subscribe sessionId ..) _ => sessionOf libraries e.vpn sessionId broker
  | .request _ (.publish sessionId ..) _ => sessionOf libraries e.vpn sessionId broker
  | .request _ (.readNext sessionId ..) _ => sessionOf libraries e.vpn sessionId broker
  | .request _ (.readTopic ..) _ => true
  | .append .. => true
  | _ => false

/-! ## Names -/

/-- The names that the requests of a VPN use: ids of sessions and clients, topic filters, groups and topics. -/
structure Names where
  ids : List String
  filters : List String
  groups : List String
  topics : List String

/-- The names of a request are among these. -/
def Request.Uses (names : Names) : Request E → Prop
  | hello userAgent => Client.buildId (some userAgent.vpn) (some userAgent.clientId) ∈ names.ids
  | subscribe sessionId groupId topicFilters =>
    sessionId ∈ names.ids ∧ groupId ∈ names.groups ∧ ∀ topicFilter ∈ topicFilters, topicFilter ∈ names.filters
  | publish sessionId topic _ => sessionId ∈ names.ids ∧ topic ∈ names.topics
  | readNext sessionId groupId => sessionId ∈ names.ids ∧ groupId ∈ names.groups
  | readTopic topic _ => topic ∈ names.topics
  | _ => False

def BrokerEvent.Uses (names : Names) : BrokerEvent E → Prop
  | .request _ r _ => r.Uses names
  | .append topic .. => topic ∈ names.topics

/-- Messages of the topic are not for those who subscribe with the filter. -/
def Misses (topicFilter topic : String) : Prop :=
  topicFilter ≠ filterWildcard ∧ libraries.isMatch topicFilter topic = some false

instance (topicFilter topic : String) : Decidable (Misses libraries topicFilter topic) :=
  inferInstanceAs (Decidable (topicFilter ≠ filterWildcard ∧ libraries.isMatch topicFilter topic = some false))

/-- The names of two VPNs have nothing to do with each other. -/
structure Apart (own other : Names) : Prop where
  topics : ∀ topic ∈ own.topics, topic ∉ other.topics
  groups : ∀ groupId ∈ own.groups, ∀ otherId ∈ other.groups, QueueStore.Separate groupId otherId
  filters : ∀ topicFilter ∈ other.filters, topicFilter ∉ own.ids ++ own.filters
  misses : ∀ topicFilter ∈ own.filters, ∀ topic ∈ other.topics, Misses libraries topicFilter topic
  missed : ∀ topicFilter ∈ other.filters, ∀ topic ∈ own.topics, Misses libraries topicFilter topic

/-- The event of a VPN uses the names of that VPN, and the GUIDs it draws are none of the names, but for the id of a
session of the VPN. -/
structure KeepsApart (own other : Names) (vpn : String) (e : VpnEvent E) : Prop where
  uses : e.event.Uses (if e.vpn = vpn then own else other)
  guids : ∀ k, e.event.newGuid k ∉ own.filters ++ other.filters
  ids : (e.vpn = vpn ∧ ∃ seq userAgent env, e.event = .request seq (.hello userAgent) env) ∨
    ∀ k, e.event.newGuid k ∉ own.ids

end

/-- A record of an exchange whose filter and queues have names among these. -/
def ExchangeOf (names : Names) (entity : Entity) : Prop :=
  ∃ topicFilter ∈ names.filters, ∃ exchange, entity.entityId = some topicFilter ∧
    entity.value = .messageExchange exchange ∧ exchange.topicFilter = some topicFilter ∧
    ∀ queueName ∈ exchange.queueNames, queueName ∈ names.groups

/-- Every exchange is of one of the two VPNs, and under a filter there are only exchanges. -/
def Owned (own other : Names) (entity : Entity) : Prop :=
  (entity.entityType = StandardEntityTypes.messageExchange ∨
      ∃ topicFilter ∈ own.filters ++ other.filters, entity.entityId = some topicFilter) →
    ExchangeOf own entity ∨ ExchangeOf other entity

/-! ## What the sessions of a VPN see -/

namespace Names

variable (names : Names)

/-- The types of which all records are seen. -/
def SeesType (entityType : String) : Prop :=
  entityType = StandardEntityTypes.vpn ∨
    ∃ groupId ∈ names.groups, entityType = queue groupId ∨ entityType = consumedQueueMessage groupId

/-- The records that are looked up by an id or by a type. -/
def Sees (entity : Entity) : Prop :=
  (∃ id ∈ names.ids ++ names.filters, entity.entityId = some id) ∨ names.SeesType entity.entityType

instance (entity : Entity) : Decidable (names.Sees entity) :=
  inferInstanceAs (Decidable ((∃ id ∈ names.ids ++ names.filters, entity.entityId = some id) ∨
    entity.entityType = StandardEntityTypes.vpn ∨
      ∃ groupId ∈ names.groups, entity.entityType = queue groupId ∨ entity.entityType = consumedQueueMessage groupId))

/-- The records of the store that are seen. -/
def view (entities : InMemoryEntities) : InMemoryEntities :=
  ⟨entities.nodeStates.filter fun entity => names.Sees entity⟩

variable {names}

/-- What the names let see is found as before. -/
theorem getLastEntityId_view {id : String} (known : id ∈ names.ids ++ names.filters) (entities : InMemoryEntities) :
    getLastEntityId (some id) (names.view entities) = getLastEntityId (some id) entities := by
  refine find?_descending_filter Entity.entityVersion (fun entity named => ?_) entities.nodeStates
  exact decide_eq_true (.inl ⟨id, known, of_decide_eq_true named⟩)

theorem getLastEntityType_view {entityType : String} (seen : names.SeesType entityType) (entities : InMemoryEntities) :
    (names.view entities).getLastEntityType entityType = entities.getLastEntityType entityType := by
  refine find?_descending_filter Entity.entityVersion (fun entity typed => ?_) entities.nodeStates
  have typed : entity.entityType = entityType := of_decide_eq_true typed
  exact decide_eq_true (.inr (typed ▸ seen))

theorem filter_view {p : Entity → Bool} (seen : ∀ entity, p entity → names.Sees entity) (entities : InMemoryEntities) :
    (names.view entities).nodeStates.filter p = entities.nodeStates.filter p := by
  rw [view, List.filter_filter]
  refine List.filter_congr fun entity _ => ?_
  cases asked : p entity with
  | false => rfl
  | true => simp [seen entity asked]

theorem getSpecificEntityType_view {entityType : String} (seen : names.SeesType entityType) (version : Int)
    (entities : InMemoryEntities) :
    getSpecificEntityType entityType version (names.view entities) =
      getSpecificEntityType entityType version entities := by
  have filtered := filter_view (p := fun ns => ns.entityType = entityType ∧ ns.entityVersion = version)
    (fun entity found => .inr ((of_decide_eq_true found).1 ▸ seen)) entities
  simp only [getSpecificEntityType, ← List.head?_filter, filtered]

/-- A query by a type that is seen answers from what is seen. -/
theorem getAllLastEntityTypes_view {entityType : String} (seen : names.SeesType entityType)
    (entities : InMemoryEntities) :
    (names.view entities).getAllLastEntityTypes entityType = entities.getAllLastEntityTypes entityType := by
  have filtered := filter_view (p := fun ns => ns.entityType = entityType)
    (fun entity found => .inr (of_decide_eq_true found ▸ seen)) entities
  simp only [InMemoryEntities.getAllLastEntityTypes, filtered]

end Names

/-! ## Stores that look alike -/

/-- The sessions of a VPN see the same records in both stores. -/
structure Alike (own other : Names) (left right : InMemoryEntities) : Prop where
  view : own.view left = own.view right
  left : ∀ entity ∈ left.nodeStates, Owned own other entity
  right : ∀ entity ∈ right.nodeStates, Owned own other entity

section
variable {E : Type} {libraries : Libraries E} {own other : Names} {left right : InMemoryEntities}

theorem Alike.symm (alike : Alike own other left right) : Alike own other right left :=
  ⟨alike.view.symm, alike.right, alike.left⟩

/-- A record that is not seen changes nothing. -/
theorem Alike.add_left (alike : Alike own other left right) {entity : Entity} (hidden : ¬ own.Sees entity)
    (owned : Owned own other entity) : Alike own other (IEntityStore.add entity left) right := by
  refine ⟨?_, fun e inside => ?_, alike.right⟩
  · rw [← alike.view]
    simp [Names.view, IEntityStore.add, hidden]
  · rcases List.mem_append.mp inside with old | new
    · exact alike.left e old
    · exact List.mem_singleton.mp new ▸ owned

/-- Nor does the same record in both. -/
theorem Alike.add (alike : Alike own other left right) {entity : Entity} (owned : Owned own other entity) :
    Alike own other (IEntityStore.add entity left) (IEntityStore.add entity right) := by
  have owned : ∀ {store : InMemoryEntities}, (∀ e ∈ store.nodeStates, Owned own other e) →
      ∀ e ∈ (IEntityStore.add entity store).nodeStates, Owned own other e := by
    intro store each e inside
    rcases List.mem_append.mp inside with old | new
    · exact each e old
    · exact List.mem_singleton.mp new ▸ owned
  have same : left.nodeStates.filter (fun e => own.Sees e) = right.nodeStates.filter fun e => own.Sees e :=
    congrArg InMemoryEntities.nodeStates alike.view
  refine ⟨?_, owned alike.left, owned alike.right⟩
  simp only [Names.view, IEntityStore.add, List.filter_append, same]

/-- Alike stores answer alike to those who know the identifier. -/
theorem Alike.last (alike : Alike own other left right) {id : String} (known : id ∈ own.ids ++ own.filters) :
    getLastEntityId (some id) left = getLastEntityId (some id) right := by
  rw [← Names.getLastEntityId_view known, alike.view, Names.getLastEntityId_view known]

/-- The same value is read of both. -/
theorem Alike.getEntity (alike : Alike own other left right) {T : Type} (read : EntityValue → Option (Option T))
    {id : String} (known : id ∈ own.ids ++ own.filters) :
    getEntity read (some id) left = getEntity read (some id) right := by
  rw [Runtime.getEntity, Runtime.getEntity, alike.last known]

theorem Alike.vpn (alike : Alike own other left right) (json : JsonReader) (name : Option String) :
    VpnStore.get json name left = VpnStore.get json name right := by
  have seen : own.SeesType StandardEntityTypes.vpn := .inl rfl
  simp only [VpnStore.get, VpnStore.getAll, ← Names.getAllLastEntityTypes_view seen left, alike.view,
    Names.getAllLastEntityTypes_view seen right]

/-- Alike stores have the same newest entity of a type that is seen. -/
theorem Alike.lastType (alike : Alike own other left right) {entityType : String} (seen : own.SeesType entityType) :
    INodeStateStore.getLastEntityType entityType left = INodeStateStore.getLastEntityType entityType right := by
  simp only [INodeStateStore.getLastEntityType, ← Names.getLastEntityType_view seen left, alike.view,
    Names.getLastEntityType_view seen right]

theorem Alike.specific (alike : Alike own other left right) {entityType : String} (seen : own.SeesType entityType)
    (version : Int) :
    getSpecificEntityType entityType version left = getSpecificEntityType entityType version right := by
  rw [← Names.getSpecificEntityType_view seen, alike.view, Names.getSpecificEntityType_view seen]

/-! ## Records by what writes them -/

/-- A record under a GUID, of another type than exchanges. -/
theorem owned_of_other {entity : Entity} (notExchange : entity.entityType ≠ StandardEntityTypes.messageExchange)
    {id : String} (named : entity.entityId = some id) (new : id ∉ own.filters ++ other.filters) :
    Owned own other entity := by
  rintro (exchange | ⟨topicFilter, member, same⟩)
  · exact absurd exchange notExchange
  · obtain rfl : id = topicFilter := Option.some.inj (named.symm.trans same)
    exact absurd member new

/-- A new identifier is not among those that are known. -/
theorem not_known {guid : String} (new : guid ∉ own.filters ++ other.filters) (unknown : guid ∉ own.ids) :
    guid ∉ own.ids ++ own.filters := by
  intro member
  rcases List.mem_append.mp member with id | topicFilter
  · exact unknown id
  · exact new (List.mem_append_left _ topicFilter)

/-- What somebody else adds is not seen. -/
theorem hidden_of_other {entity : Entity} (notSeen : ¬ own.SeesType entity.entityType) {id : String}
    (named : entity.entityId = some id) (new : id ∉ own.ids ++ own.filters) : ¬ own.Sees entity := by
  rintro (⟨known, member, same⟩ | typed)
  · obtain rfl : id = known := Option.some.inj (named.symm.trans same)
    exact new member
  · exact notSeen typed

/-- The types of records that begin with another letter than the types of queues. -/
theorem not_seesType {entityType : String} (notVpn : entityType ≠ StandardEntityTypes.vpn)
    (notQueue : entityType.toList.head? ≠ some 'Q') : ¬ own.SeesType entityType := by
  rintro (vpn | ⟨groupId, -, message | marker⟩)
  · exact notVpn vpn
  · exact append_ne (by decide) (Ne.symm notQueue) groupId message.symm
  · exact append_ne (by decide) (Ne.symm notQueue) groupId marker.symm

/-- No other type is called like a queue. -/
theorem queue_ne {entityType : String} (notQueue : entityType.toList.head? ≠ some 'Q') (groupId : String) :
    queue groupId ≠ entityType ∧ consumedQueueMessage groupId ≠ entityType :=
  ⟨append_ne (by decide) (Ne.symm notQueue) groupId, append_ne (by decide) (Ne.symm notQueue) groupId⟩

/-- The records of the queues of one VPN are not those of the queues of the other. -/
theorem Apart.not_seesType_queue (apart : Apart libraries own other) {groupId : String}
    (member : groupId ∈ other.groups) :
    ¬ own.SeesType (queue groupId) ∧ ¬ own.SeesType (consumedQueueMessage groupId) := by
  obtain ⟨queueNotVpn, markerNotVpn⟩ : queue groupId ≠ StandardEntityTypes.vpn ∧
      consumedQueueMessage groupId ≠ StandardEntityTypes.vpn := queue_ne (by decide) groupId
  constructor
  · rintro (vpn | ⟨ownId, mine, message | marker⟩)
    · exact queueNotVpn vpn
    · exact (apart.groups ownId mine groupId member).1 (queue_inj.mp message).symm
    · rw [consumedQueueMessage_eq] at marker
      exact (apart.groups ownId mine groupId member).2.2 (queue_inj.mp marker)
  · rintro (vpn | ⟨ownId, mine, message | marker⟩)
    · exact markerNotVpn vpn
    · rw [consumedQueueMessage_eq] at message
      exact (apart.groups ownId mine groupId member).2.1 (queue_inj.mp message).symm
    · exact (apart.groups ownId mine groupId member).1 (consumedQueueMessage_inj.mp marker).symm

/-! ## Queues -/

section
variable {groupId guid : String}

/-- A message is added to both stores. -/
theorem Alike.queue_add (alike : Alike own other left right) (mine : groupId ∈ own.groups)
    (new : guid ∉ own.filters ++ other.filters) (message : String) :
    Alike own other (QueueStore.add groupId message guid left) (QueueStore.add groupId message guid right) := by
  have version : QueueStore.messageVersion groupId left = QueueStore.messageVersion groupId right := by
    rw [QueueStore.messageVersion, QueueStore.messageVersion, alike.lastType (.inr ⟨groupId, mine, .inl rfl⟩)]
  unfold QueueStore.add
  rw [version]
  exact alike.add (owned_of_other (queue_ne (by decide) groupId).1 rfl new)

/-- A message in a queue of somebody else makes no difference. -/
theorem Alike.queue_add_other (alike : Alike own other left right) (apart : Apart libraries own other)
    (foreign : groupId ∈ other.groups) (new : guid ∉ own.filters ++ other.filters)
    (unknown : guid ∉ own.ids ++ own.filters) (message : String) : Alike own other (QueueStore.add groupId message guid left) right :=
  alike.add_left (hidden_of_other (apart.not_seesType_queue foreign).1 rfl unknown)
    (owned_of_other (queue_ne (by decide) groupId).1 rfl new)

/-- The same message is taken from both stores. -/
theorem Alike.dequeue (alike : Alike own other left right) (mine : groupId ∈ own.groups)
    (new : guid ∉ own.filters ++ other.filters) :
    (QueueStore.dequeue groupId guid left).1 = (QueueStore.dequeue groupId guid right).1 ∧
      Alike own other (QueueStore.dequeue groupId guid left).2 (QueueStore.dequeue groupId guid right).2 := by
  have version : QueueStore.consumedVersion groupId left = QueueStore.consumedVersion groupId right := by
    rw [QueueStore.consumedVersion, QueueStore.consumedVersion, alike.lastType (.inr ⟨groupId, mine, .inr rfl⟩)]
  have found := alike.specific (.inr ⟨groupId, mine, .inl rfl⟩) (QueueStore.consumedVersion groupId right)
  simp only [QueueStore.dequeue, version, found]
  split
  · exact ⟨rfl, alike⟩
  · exact ⟨rfl, alike.add (owned_of_other (queue_ne (by decide) groupId).2 rfl new)⟩

/-- What somebody else takes makes no difference. -/
theorem Alike.dequeue_other (alike : Alike own other left right) (apart : Apart libraries own other)
    (foreign : groupId ∈ other.groups) (new : guid ∉ own.filters ++ other.filters)
    (unknown : guid ∉ own.ids ++ own.filters) :
    Alike own other (QueueStore.dequeue groupId guid left).2 right := by
  unfold QueueStore.dequeue
  dsimp only
  split
  · exact alike
  · exact alike.add_left (hidden_of_other (apart.not_seesType_queue foreign).2 rfl unknown)
      (owned_of_other (queue_ne (by decide) groupId).2 rfl new)

end

/-! ## Exchanges -/

/-- The exchange that a subscription writes, when it has found this one. -/
def subscribed (queueName topicFilter : String) (found : Option MessageExchange) : MessageExchange :=
  let exchange := found.getD { topicFilter := some topicFilter }
  if queueName ∈ exchange.queueNames then exchange
  else { exchange with queueNames := exchange.queueNames ++ [queueName] }

theorem addMessageExchanges_cons {queueName topicFilter : String} {entities : InMemoryEntities}
    {found : Option MessageExchange}
    (got : MessageExchangeStore.get libraries.json (some topicFilter) entities = some found)
    (topicFilters : List String) :
    Broker.addMessageExchanges libraries queueName (topicFilter :: topicFilters) entities =
      Broker.addMessageExchanges libraries queueName topicFilters
        (MessageExchangeStore.add (subscribed queueName topicFilter found) entities) := by
  rw [Broker.addMessageExchanges, got]
  rfl

/-- Where there are only exchanges of a VPN under a filter, a subscription of that VPN writes another one. -/
theorem exists_subscribed (json : JsonReader) {names : Names} {entities : InMemoryEntities}
    {topicFilter queueName : String}
    (only : ∀ entity ∈ entities.nodeStates, entity.entityId = some topicFilter → ExchangeOf names entity)
    (named : queueName ∈ names.groups) :
    ∃ found, MessageExchangeStore.get json (some topicFilter) entities = some found ∧
      (subscribed queueName topicFilter found).topicFilter = some topicFilter ∧
      ∀ name ∈ (subscribed queueName topicFilter found).queueNames, name ∈ names.groups := by
  unfold MessageExchangeStore.get getEntity
  cases last : getLastEntityId (some topicFilter) entities with
  | none => exact ⟨none, rfl, by simp [subscribed], by simpa [subscribed] using named⟩
  | some entity =>
    obtain ⟨member, id⟩ := mem_of_getLastEntityId last
    obtain ⟨topicFilter', -, exchange, id', value, own, names⟩ := only entity member id
    obtain rfl : topicFilter = topicFilter' := Option.some.inj (id.symm.trans id')
    refine ⟨some exchange, by rw [Option.elim_some, value]; rfl, ?_, fun name inside => ?_⟩
    · simp only [subscribed]
      split <;> exact own
    · simp only [subscribed] at inside
      split at inside
      · exact names name inside
      · rcases List.mem_append.mp inside with old | new
        · exact names name old
        · exact List.mem_singleton.mp new ▸ named

/-- Under a filter that is not one of the other names. -/
theorem ExchangeOf.resolve {names others : Names} {entity : Entity}
    (exchange : ExchangeOf names entity ∨ ExchangeOf others entity)
    {topicFilter : String} (named : entity.entityId = some topicFilter) (notOther : topicFilter ∉ others.filters) :
    ExchangeOf names entity := by
  rcases exchange with exchange | ⟨foreign, member, -, id, -⟩
  · exact exchange
  · obtain rfl : topicFilter = foreign := Option.some.inj (named.symm.trans id)
    exact absurd member notOther

/-- Under an own filter there are own exchanges only. -/
theorem Apart.only_own (apart : Apart libraries own other) {topicFilter : String} (mine : topicFilter ∈ own.filters)
    {entity : Entity} (owned : Owned own other entity) (named : entity.entityId = some topicFilter) :
    ExchangeOf own entity := by
  have notOther : topicFilter ∉ other.filters := fun foreign =>
    apart.filters topicFilter foreign (List.mem_append_right _ mine)
  exact ExchangeOf.resolve (owned (.inr ⟨topicFilter, List.mem_append_left _ mine, named⟩)) named notOther

/-- Under a filter of somebody else there are their exchanges only. -/
theorem Apart.only_other (apart : Apart libraries own other) {topicFilter : String}
    (foreign : topicFilter ∈ other.filters) {entity : Entity} (owned : Owned own other entity)
    (named : entity.entityId = some topicFilter) : ExchangeOf other entity := by
  have notOwn : topicFilter ∉ own.filters := fun mine =>
    apart.filters topicFilter foreign (List.mem_append_right _ mine)
  exact ExchangeOf.resolve (owned (.inr ⟨topicFilter, List.mem_append_right _ foreign, named⟩)).symm named notOwn

/-- A subscription is added to both stores. -/
theorem Alike.addMessageExchanges (alike : Alike own other left right) (apart : Apart libraries own other)
    {queueName : String} (mine : queueName ∈ own.groups) {topicFilters : List String}
    (filters : ∀ topicFilter ∈ topicFilters, topicFilter ∈ own.filters) :
    (Broker.addMessageExchanges libraries queueName topicFilters left).2 =
        (Broker.addMessageExchanges libraries queueName topicFilters right).2 ∧
      Alike own other (Broker.addMessageExchanges libraries queueName topicFilters left).1
        (Broker.addMessageExchanges libraries queueName topicFilters right).1 := by
  induction topicFilters generalizing left right with
  | nil => exact ⟨rfl, alike⟩
  | cons topicFilter topicFilters ih =>
    have filter := filters topicFilter List.mem_cons_self
    have known : topicFilter ∈ own.ids ++ own.filters := List.mem_append_right _ filter
    obtain ⟨found, got, topic, queues⟩ := exists_subscribed libraries.json
      (fun entity member => apart.only_own filter (alike.left entity member)) mine
    have gotRight : MessageExchangeStore.get libraries.json (some topicFilter) right = some found :=
      (alike.getEntity _ known).symm.trans got
    rw [addMessageExchanges_cons got, addMessageExchanges_cons gotRight]
    refine ih ?_ fun f member => filters f (List.mem_cons_of_mem _ member)
    unfold MessageExchangeStore.add addEntity
    rw [topic, alike.last known]
    exact alike.add fun _ => .inl ⟨topicFilter, filter, _, rfl, rfl, topic, queues⟩

/-- A subscription of somebody else makes no difference. -/
theorem Alike.addMessageExchanges_other (alike : Alike own other left right) (apart : Apart libraries own other)
    {queueName : String} (foreign : queueName ∈ other.groups) {topicFilters : List String}
    (filters : ∀ topicFilter ∈ topicFilters, topicFilter ∈ other.filters) :
    Alike own other (Broker.addMessageExchanges libraries queueName topicFilters left).1 right := by
  induction topicFilters generalizing left with
  | nil => exact alike
  | cons topicFilter topicFilters ih =>
    have filter := filters topicFilter List.mem_cons_self
    obtain ⟨found, got, topic, queues⟩ := exists_subscribed libraries.json
      (fun entity member => apart.only_other filter (alike.left entity member)) foreign
    rw [addMessageExchanges_cons got]
    refine ih ?_ fun f member => filters f (List.mem_cons_of_mem _ member)
    have notSeen : ¬ own.SeesType StandardEntityTypes.messageExchange := not_seesType (by decide) (by decide)
    exact alike.add_left (hidden_of_other notSeen topic (apart.filters topicFilter filter))
      fun _ => .inr ⟨topicFilter, filter, _, topic, rfl, topic, queues⟩

/-! ## Queue names -/

/-- The exchange of one VPN gives nothing to the topics of the other. -/
theorem queueNamesOf_missed {names : Names} {topic : String} {entity : Entity} (exchange : ExchangeOf names entity)
    (missed : ∀ topicFilter ∈ names.filters, Misses libraries topicFilter topic) :
    queueNamesOf libraries topic entity = some [] := by
  obtain ⟨topicFilter, member, exchange, -, value, own, -⟩ := exchange
  obtain ⟨notWildcard, noMatch⟩ := missed topicFilter member
  simp [queueNamesOf, value, EntityValue.readMessageExchange, MessageExchange.isMatch, own, notWildcard, noMatch]

theorem mem_getAllLastEntityTypes {entityType : String} {entities : InMemoryEntities} {entity : Entity}
    (member : entity ∈ entities.getAllLastEntityTypes entityType) :
    entity ∈ entities.nodeStates ∧ entity.entityType = entityType := by
  have inside := mem_descending.mp (List.mem_of_find?_eq_some (mem_firstOfEach.mp member))
  obtain ⟨stored, typed⟩ := List.mem_filter.mp inside
  exact ⟨stored, of_decide_eq_true typed⟩

/-- The exchanges that are seen are the last ones of each filter that is known. -/
theorem getAllLastEntityTypes_exchange_view (entities : InMemoryEntities) :
    (own.view entities).getAllLastEntityTypes StandardEntityTypes.messageExchange =
      (entities.getAllLastEntityTypes StandardEntityTypes.messageExchange).filter fun entity =>
        ∃ id ∈ own.ids ++ own.filters, entity.entityId = some id := by
  have notSeen : ¬ own.SeesType StandardEntityTypes.messageExchange := not_seesType (by decide) (by decide)
  unfold InMemoryEntities.getAllLastEntityTypes
  rw [filter_firstOfEach Entity.entityId (fun id => ∃ known ∈ own.ids ++ own.filters, id = some known),
    filter_descending, Names.view, List.filter_filter, List.filter_filter]
  refine congrArg (fun l => firstOfEach Entity.entityId (descending Entity.entityVersion l)) ?_
  refine List.filter_congr fun entity _ => ?_
  by_cases typed : entity.entityType = StandardEntityTypes.messageExchange
  · have seen : own.Sees entity ↔ ∃ id ∈ own.ids ++ own.filters, entity.entityId = some id :=
      or_iff_left (typed ▸ notSeen)
    simp only [typed, decide_true, Bool.true_and, Bool.and_true]
    exact decide_eq_decide.mpr seen
  · simp [typed]

/-- The queues of an own topic are found among what is seen. -/
theorem getQueueNames_view (apart : Apart libraries own other) {topic : String} (mine : topic ∈ own.topics)
    {entities : InMemoryEntities} (each : ∀ entity ∈ entities.nodeStates, Owned own other entity) :
    getQueueNames libraries topic (own.view entities) = getQueueNames libraries topic entities := by
  have gathered : ∀ l : List Entity,
      (l.mapM (queueNamesOf libraries topic)).map (fun names => names.flatten.eraseDups) =
      ((l.mapM (queueNamesOf libraries topic)).map List.flatten).map List.eraseDups := fun l => by
    rw [Option.map_map]
    rfl
  unfold getQueueNames
  rw [gathered, gathered, getAllLastEntityTypes_exchange_view, mapM_flatten_filter]
  -- an exchange that is not seen is of the other VPN, and its filter misses the topic
  intro entity member unknown
  obtain ⟨stored, typed⟩ := mem_getAllLastEntityTypes member
  rcases each entity stored (.inl typed) with ⟨topicFilter, known, -, id, -⟩ | exchange
  · exact absurd (decide_eq_true ⟨topicFilter, List.mem_append_right _ known, id⟩) unknown
  · exact queueNamesOf_missed exchange fun topicFilter member => apart.missed topicFilter member topic mine

/-- An own topic has the same queues in both stores. -/
theorem Alike.getQueueNames (alike : Alike own other left right) (apart : Apart libraries own other) {topic : String}
    (mine : topic ∈ own.topics) : getQueueNames libraries topic left = getQueueNames libraries topic right := by
  rw [← getQueueNames_view apart mine alike.left, alike.view, getQueueNames_view apart mine alike.right]

/-- A queue of a topic comes from an exchange that matches it. -/
theorem mem_getQueueNames {topic queueName : String} {entities : InMemoryEntities} {queueNames : List String}
    (got : Runtime.getQueueNames libraries topic entities = some queueNames) (member : queueName ∈ queueNames) :
    ∃ entity ∈ entities.nodeStates, entity.entityType = StandardEntityTypes.messageExchange ∧
      ∃ names, queueNamesOf libraries topic entity = some names ∧ queueName ∈ names := by
  obtain ⟨lists, all, rfl⟩ := Option.map_eq_some_iff.mp got
  obtain ⟨names, listed, inside⟩ := List.mem_flatten.mp (List.mem_eraseDups.mp member)
  obtain ⟨entity, last, given⟩ := exists_of_mem_mapM all listed
  obtain ⟨stored, typed⟩ := mem_getAllLastEntityTypes last
  exact ⟨entity, stored, typed, names, given, inside⟩

/-- An own exchange gives own queues. -/
theorem ExchangeOf.queueNamesOf {names : Names} {topic : String} {entity : Entity} (exchange : ExchangeOf names entity)
    {queueNames : List String} (given : Runtime.queueNamesOf libraries topic entity = some queueNames) :
    ∀ queueName ∈ queueNames, queueName ∈ names.groups := by
  obtain ⟨topicFilter, -, exchange, -, value, -, groups⟩ := exchange
  simp only [Runtime.queueNamesOf, value, EntityValue.readMessageExchange] at given
  obtain ⟨found, -, rfl⟩ := Option.map_eq_some_iff.mp given
  intro queueName member
  split at member
  · exact groups queueName member
  · cases member

/-- The messages of a topic that the filters of others miss go to queues of these names. -/
theorem groups_of_missed {names others : Names} {topic : String} {entities : InMemoryEntities}
    (each : ∀ entity ∈ entities.nodeStates, entity.entityType = StandardEntityTypes.messageExchange →
      ExchangeOf names entity ∨ ExchangeOf others entity)
    (missed : ∀ topicFilter ∈ others.filters, Misses libraries topicFilter topic) {queueNames : List String}
    (got : getQueueNames libraries topic entities = some queueNames) :
    ∀ queueName ∈ queueNames, queueName ∈ names.groups := by
  intro queueName member
  obtain ⟨entity, stored, typed, given, some, inside⟩ := mem_getQueueNames got member
  rcases each entity stored typed with exchange | exchange
  · exact exchange.queueNamesOf some queueName inside
  · rw [queueNamesOf_missed exchange missed] at some
    cases some
    cases inside

/-- Messages of an own topic go to own queues. -/
theorem Apart.queueNames_own (apart : Apart libraries own other) {topic : String} (mine : topic ∈ own.topics)
    {entities : InMemoryEntities} (each : ∀ entity ∈ entities.nodeStates, Owned own other entity)
    {queueNames : List String} (got : getQueueNames libraries topic entities = some queueNames) :
    ∀ queueName ∈ queueNames, queueName ∈ own.groups :=
  groups_of_missed (fun entity stored typed => each entity stored (.inl typed))
    (fun topicFilter member => apart.missed topicFilter member topic mine) got

/-- Messages of a topic of somebody else go to queues of somebody else. -/
theorem Apart.queueNames_other (apart : Apart libraries own other) {topic : String} (foreign : topic ∈ other.topics)
    {entities : InMemoryEntities} (each : ∀ entity ∈ entities.nodeStates, Owned own other entity)
    {queueNames : List String} (got : getQueueNames libraries topic entities = some queueNames) :
    ∀ queueName ∈ queueNames, queueName ∈ other.groups :=
  groups_of_missed (fun entity stored typed => (each entity stored (.inl typed)).symm)
    (fun topicFilter member => apart.misses topicFilter member topic foreign) got

/-- A message is added to its queues in both stores. -/
theorem Alike.appendMessage (alike : Alike own other left right) {queueNames : List String}
    (mine : ∀ queueName ∈ queueNames, queueName ∈ own.groups) {newGuid : Nat → String}
    (new : ∀ k, newGuid k ∉ own.filters ++ other.filters) (message : String) :
    Alike own other (appendMessage message newGuid queueNames left)
      (appendMessage message newGuid queueNames right) := by
  induction queueNames generalizing left right newGuid with
  | nil => exact alike
  | cons queueName queueNames ih =>
    exact ih (alike.queue_add (mine queueName List.mem_cons_self) (new 0) message)
      (fun name member => mine name (List.mem_cons_of_mem _ member)) fun k => new (k + 1)

/-- Messages of somebody else make no difference. -/
theorem Alike.appendMessage_other (alike : Alike own other left right) (apart : Apart libraries own other)
    {queueNames : List String} (foreign : ∀ queueName ∈ queueNames, queueName ∈ other.groups) {newGuid : Nat → String}
    (new : ∀ k, newGuid k ∉ own.filters ++ other.filters) (unknown : ∀ k, newGuid k ∉ own.ids ++ own.filters)
    (message : String) : Alike own other (Runtime.appendMessage message newGuid queueNames left) right := by
  induction queueNames generalizing left newGuid with
  | nil => exact alike
  | cons queueName queueNames ih =>
    exact ih (alike.queue_add_other apart (foreign queueName List.mem_cons_self) (new 0) (unknown 0) message)
      (fun name member => foreign name (List.mem_cons_of_mem _ member)) (fun k => new (k + 1)) fun k => unknown (k + 1)

end

/-! ## Nodes that look alike -/

/-- The sessions of a VPN see the same records and the same logs. -/
structure AlikeBrokers (own other : Names) (left right : Broker) : Prop where
  entities : Alike own other left.entities right.entities
  peers : ∀ topic ∈ own.topics, left.findPeer topic = right.findPeer topic

section
variable {E : Type} {libraries : Libraries E} {own other : Names} {left right : Broker} {topic : String}
  {newGuid : Nat → String} (leads : Bool) (record : LogRecord String)

/-- The record is appended to the log of the topic. -/
theorem peers_appendEntry (broker : Broker) :
    (broker.appendEntry libraries newGuid leads topic record).1.peers =
      (broker.peers.findIdx? (·.termId = topic)).elim broker.peers fun k =>
        broker.peers.modify k fun peer => { peer with logRecords := peer.logRecords ++ [record] } := by
  unfold Broker.appendEntry
  dsimp only
  split
  · split <;> rfl
  · rfl

theorem findPeer_appendEntry (broker : Broker) :
    (broker.appendEntry libraries newGuid leads topic record).1.findPeer topic =
      (broker.findPeer topic).map fun peer => { peer with logRecords := peer.logRecords ++ [record] } := by
  rw [Broker.findPeer, peers_appendEntry, find?_modifyFirst]
  · rfl
  · exact fun _ => rfl

/-- The peers of other topics are left as they are. -/
theorem findPeer_appendEntry_other (broker : Broker) {asked : String} (different : asked ≠ topic) :
    (broker.appendEntry libraries newGuid leads topic record).1.findPeer asked = broker.findPeer asked := by
  rw [Broker.findPeer, peers_appendEntry, find?_modifyFirst_other]
  · rfl
  · exact fun _ => rfl
  · intro peer named
    have named : peer.termId = topic := of_decide_eq_true named
    simpa [named] using Ne.symm different

/-- An own record is appended on both nodes. -/
theorem AlikeBrokers.appendEntry (alike : AlikeBrokers own other left right) (apart : Apart libraries own other)
    (mine : topic ∈ own.topics) (new : ∀ k, newGuid k ∉ own.filters ++ other.filters) :
    (left.appendEntry libraries newGuid leads topic record).2 =
        (right.appendEntry libraries newGuid leads topic record).2 ∧
      AlikeBrokers own other (left.appendEntry libraries newGuid leads topic record).1
        (right.appendEntry libraries newGuid leads topic record).1 := by
  have peers : ∀ asked ∈ own.topics, (left.appendEntry libraries newGuid leads topic record).1.findPeer asked =
      (right.appendEntry libraries newGuid leads topic record).1.findPeer asked := by
    intro asked member
    by_cases same : asked = topic
    · rw [same, findPeer_appendEntry, findPeer_appendEntry, alike.peers topic mine]
    · rw [findPeer_appendEntry_other _ _ _ same, findPeer_appendEntry_other _ _ _ same, alike.peers asked member]
  suffices entities : (left.appendEntry libraries newGuid leads topic record).2 =
        (right.appendEntry libraries newGuid leads topic record).2 ∧
      Alike own other (left.appendEntry libraries newGuid leads topic record).1.entities
        (right.appendEntry libraries newGuid leads topic record).1.entities from
    ⟨entities.1, entities.2, peers⟩
  simp only [Broker.appendEntry, alike.entities.getQueueNames apart mine]
  split
  · cases got : getQueueNames libraries topic right.entities with
    | none => exact ⟨rfl, alike.entities⟩
    | some queueNames =>
      have queues := apart.queueNames_own mine alike.entities.right got
      exact ⟨rfl, alike.entities.appendMessage queues new record.value⟩
  · exact ⟨rfl, alike.entities⟩

/-- A record of somebody else makes no difference. -/
theorem AlikeBrokers.appendEntry_other (alike : AlikeBrokers own other left right) (apart : Apart libraries own other)
    (foreign : topic ∈ other.topics) (new : ∀ k, newGuid k ∉ own.filters ++ other.filters)
    (unknown : ∀ k, newGuid k ∉ own.ids ++ own.filters) :
    AlikeBrokers own other (left.appendEntry libraries newGuid leads topic record).1 right := by
  refine ⟨?_, fun asked mine => ?_⟩
  · simp only [Broker.appendEntry]
    split
    · cases got : getQueueNames libraries topic left.entities with
      | none => exact alike.entities
      | some queueNames =>
        have queues := apart.queueNames_other foreign alike.entities.left got
        exact alike.entities.appendMessage_other apart queues new unknown record.value
    · exact alike.entities
  · have different : asked ≠ topic := fun same => apart.topics asked mine (same ▸ foreign)
    rw [findPeer_appendEntry_other _ _ _ different, alike.peers asked mine]

end

section
variable {E : Type} {libraries : Libraries E} {own other : Names} {left right : Broker} {topic : String}

theorem findPeer_addPeer (broker : Broker) (entityId termId asked : String) :
    (broker.addPeer entityId termId).findPeer asked =
      (broker.findPeer asked).or (if termId = asked then some ⟨termId, []⟩ else none) := by
  simp only [Broker.findPeer, Broker.addPeer, List.find?_append, List.find?_singleton, decide_eq_true_eq]

/-- The record of a peer is not seen. -/
theorem Alike.addPeer_other {left right : InMemoryEntities} (alike : Alike own other left right) {entityId : String}
    (new : entityId ∉ own.filters ++ other.filters) (unknown : entityId ∉ own.ids ++ own.filters) (termId : String) :
    Alike own other (left.addOfType RaftConsensus.StandardEntityTypes.peer entityId (.peer termId)) right := by
  have notSeen : ¬ own.SeesType RaftConsensus.StandardEntityTypes.peer := not_seesType (by decide) (by decide)
  have notExchange : RaftConsensus.StandardEntityTypes.peer ≠ StandardEntityTypes.messageExchange := by decide
  exact alike.add_left (hidden_of_other notSeen rfl unknown) (owned_of_other notExchange rfl new)

theorem AlikeBrokers.addPeer (alike : AlikeBrokers own other left right) {entityId : String}
    (new : entityId ∉ own.filters ++ other.filters) (unknown : entityId ∉ own.ids ++ own.filters) (termId : String) :
    AlikeBrokers own other (left.addPeer entityId termId) (right.addPeer entityId termId) := by
  refine ⟨?_, fun asked mine => ?_⟩
  · exact ((alike.entities.addPeer_other new unknown termId).symm.addPeer_other new unknown termId).symm
  · rw [findPeer_addPeer, findPeer_addPeer, alike.peers asked mine]

/-- A peer of somebody else makes no difference. -/
theorem AlikeBrokers.addPeer_other (alike : AlikeBrokers own other left right) (apart : Apart libraries own other)
    (foreign : topic ∈ other.topics) {entityId : String} (new : entityId ∉ own.filters ++ other.filters)
    (unknown : entityId ∉ own.ids ++ own.filters) : AlikeBrokers own other (left.addPeer entityId topic) right := by
  refine ⟨alike.entities.addPeer_other new unknown topic, fun asked mine => ?_⟩
  have different : topic ≠ asked := fun same => apart.topics asked mine (same ▸ foreign)
  rw [findPeer_addPeer, if_neg different, Option.or_none, alike.peers asked mine]

/-! ## Sessions -/

/-- Own sessions are the same. -/
theorem AlikeBrokers.getSession (alike : AlikeBrokers own other left right) {sessionId : String}
    (known : sessionId ∈ own.ids) : left.getSession libraries sessionId = right.getSession libraries sessionId := by
  unfold Broker.getSession ClientSessionStore.get
  rw [alike.entities.getEntity _ (List.mem_append_left _ known)]

theorem AlikeBrokers.getActiveSession (alike : AlikeBrokers own other left right) {sessionId : String}
    (known : sessionId ∈ own.ids) :
    left.getActiveSession libraries sessionId = right.getActiveSession libraries sessionId := by
  unfold Broker.getActiveSession
  rw [alike.getSession known]
  simp only [alike.entities.vpn]

/-- A session is created on both nodes, with the same answer. -/
theorem AlikeBrokers.createSession (alike : AlikeBrokers own other left right) {userAgent : UserAgent}
    (known : Client.buildId (some userAgent.vpn) (some userAgent.clientId) ∈ own.ids) (env : RequestEnv) :
    left.createSession libraries env userAgent = right.createSession libraries env userAgent := by
  unfold Broker.createSession Broker.authenticate ClientStore.get
  rw [alike.entities.vpn, alike.entities.getEntity _ (List.mem_append_left _ known)]

/-- A session of somebody else makes no difference. -/
theorem Alike.addSession_other {left right : InMemoryEntities} (alike : Alike own other left right)
    {session : ClientSession} {id : String} (named : session.id = some id) (new : id ∉ own.filters ++ other.filters)
    (unknown : id ∉ own.ids ++ own.filters) : Alike own other (ClientSessionStore.add session left) right := by
  have notSeen : ¬ own.SeesType StandardEntityTypes.clientSession := not_seesType (by decide) (by decide)
  have notExchange : StandardEntityTypes.clientSession ≠ StandardEntityTypes.messageExchange := by decide
  exact alike.add_left (hidden_of_other notSeen named unknown) (owned_of_other notExchange named new)

/-- The record of a session is seen if its id is one of the names, and then it is the same in both stores. -/
theorem Alike.addSession {left right : InMemoryEntities} (alike : Alike own other left right) {session : ClientSession}
    {id : String} (named : session.id = some id) (new : id ∉ own.filters ++ other.filters) :
    Alike own other (ClientSessionStore.add session left) (ClientSessionStore.add session right) := by
  by_cases known : id ∈ own.ids ++ own.filters
  · have notExchange : StandardEntityTypes.clientSession ≠ StandardEntityTypes.messageExchange := by decide
    unfold ClientSessionStore.add addEntity
    rw [named, alike.last known]
    exact alike.add (owned_of_other notExchange rfl new)
  · exact ((alike.addSession_other named new known).symm.addSession_other named new known).symm

/-! ## Requests -/

variable {env : RequestEnv} {seq : String} {request : Request E}

/-- A request of the VPN is answered alike, and leaves nodes that look alike. -/
theorem AlikeBrokers.runHandler (alike : AlikeBrokers own other left right) (apart : Apart libraries own other)
    (uses : request.Uses own) (new : ∀ k, env.newGuid k ∉ own.filters ++ other.filters) :
    (left.runHandler libraries env seq request).2 = (right.runHandler libraries env seq request).2 ∧
      AlikeBrokers own other (left.runHandler libraries env seq request).1
        (right.runHandler libraries env seq request).1 := by
  cases request with
  | hello userAgent =>
    simp only [Broker.runHandler, Broker.hello, alike.createSession uses env]
    cases created : right.createSession libraries env userAgent with
    | error error => exact ⟨rfl, alike⟩
    | ok session => exact ⟨rfl, alike.entities.addSession (createSession_eq_ok created).1 (new 0), alike.peers⟩
  | subscribe sessionId groupId topicFilters =>
    obtain ⟨known, mine, filters⟩ := uses
    obtain ⟨returned, entities⟩ := alike.entities.addMessageExchanges apart mine filters
    simp only [Broker.runHandler, Broker.subscribe, Broker.checkSubscriber, alike.getActiveSession known, returned]
    split
    · exact ⟨rfl, alike⟩
    · exact ⟨rfl, entities, alike.peers⟩
  | publish sessionId topic cloudEvent =>
    obtain ⟨known, mine⟩ := uses
    simp only [Broker.runHandler, Broker.publish, Broker.checkPublisher, alike.getActiveSession known,
      alike.peers topic mine]
    exact ⟨trivial, alike⟩
  | readNext sessionId groupId =>
    obtain ⟨known, mine⟩ := uses
    obtain ⟨value, entities⟩ := alike.entities.dequeue mine (new 0)
    simp only [Broker.runHandler, Broker.readNext, Broker.checkReader, alike.getSession known]
    split
    · exact ⟨rfl, alike⟩
    · exact ⟨by rw [value], entities, alike.peers⟩
  | readTopic topic evtOffset =>
    simp only [Broker.runHandler, Broker.readTopic, alike.peers topic uses]
    exact ⟨trivial, alike⟩
  | _ => exact uses.elim

/-- A request of the other VPN is not noticed. -/
theorem AlikeBrokers.runHandler_other (alike : AlikeBrokers own other left right) (apart : Apart libraries own other)
    (uses : request.Uses other) (new : ∀ k, env.newGuid k ∉ own.filters ++ other.filters)
    (unknown : ∀ k, env.newGuid k ∉ own.ids ++ own.filters) :
    AlikeBrokers own other (left.runHandler libraries env seq request).1 right := by
  cases request with
  | hello userAgent =>
    simp only [Broker.runHandler, Broker.hello]
    cases created : left.createSession libraries env userAgent with
    | error error => exact alike
    | ok session =>
      exact ⟨alike.entities.addSession_other (createSession_eq_ok created).1 (new 0) (unknown 0), alike.peers⟩
  | subscribe sessionId groupId topicFilters =>
    obtain ⟨-, foreign, filters⟩ := uses
    simp only [Broker.runHandler, Broker.subscribe]
    split
    · exact alike
    · exact ⟨alike.entities.addMessageExchanges_other apart foreign filters, alike.peers⟩
  | publish sessionId topic cloudEvent => exact alike
  | readNext sessionId groupId =>
    obtain ⟨-, foreign⟩ := uses
    simp only [Broker.runHandler, Broker.readNext]
    split
    · exact alike
    · exact ⟨alike.entities.dequeue_other apart foreign (new 0) (unknown 0), alike.peers⟩
  | readTopic topic evtOffset => exact alike
  | _ => exact uses.elim

/-- Only PUBLISH adds a peer, that of its topic. -/
theorem publish_of_addPeer {broker after : Broker} {names : Names} (uses : request.Uses names) {termId : String}
    {package : Package E} {logRecord : LogRecord String}
    (handled : broker.runHandler libraries env seq request = (after, .ok (.addPeer termId package logRecord))) :
    ∃ sessionId cloudEvent, request = .publish sessionId termId cloudEvent := by
  have added := congrArg Prod.snd handled
  have sends : ∀ (event : Except Errors (Option E)) (result : Option E → Package E),
      event.map (fun cloudEvt => HandlerResult.sendResult (result cloudEvt)) ≠
        .ok (.addPeer termId package logRecord) := by
    intro event result
    cases event <;> simp [Except.map]
  cases request with
  | hello userAgent =>
    simp only [Broker.runHandler, Broker.hello] at added
    split at added <;> cases added
  | subscribe sessionId groupId topicFilters =>
    simp only [Broker.runHandler, Broker.subscribe] at added
    split at added
    · cases added
    · dsimp only at added
      split at added <;> cases added
  | publish sessionId topic cloudEvent =>
    obtain ⟨typed, -, added⟩ := bind_eq_ok.mp added
    obtain ⟨-, -, added⟩ := bind_eq_ok.mp added
    obtain ⟨base64Message, -, added⟩ := bind_eq_ok.mp added
    split at added
    · split at added <;> cases added
    · cases added
      exact ⟨sessionId, cloudEvent, rfl⟩
  | readNext sessionId groupId =>
    simp only [Broker.runHandler, Broker.readNext] at added
    split at added
    · cases added
    · exact absurd added (sends _ _)
  | readTopic topic evtOffset => exact absurd added (sends _ _)
  | _ => exact uses.elim

/-- Alike nodes answer an own request alike, and stay alike. -/
theorem AlikeBrokers.handlePackage (alike : AlikeBrokers own other left right) (apart : Apart libraries own other)
    (uses : request.Uses own) (new : ∀ k, env.newGuid k ∉ own.filters ++ other.filters)
    (unknown : (∃ userAgent, request = .hello userAgent) ∨ ∀ k, env.newGuid k ∉ own.ids) :
    (left.handlePackage libraries env seq request).2 = (right.handlePackage libraries env seq request).2 ∧
      AlikeBrokers own other (left.handlePackage libraries env seq request).1
        (right.handlePackage libraries env seq request).1 := by
  obtain ⟨same, alike⟩ := alike.runHandler apart uses new
  unfold Broker.handlePackage
  generalize handledLeft : left.runHandler libraries env seq request = l at same alike ⊢
  generalize handledRight : right.runHandler libraries env seq request = r at same alike ⊢
  obtain ⟨left', outcome⟩ := l
  obtain ⟨right', outcome'⟩ := r
  obtain rfl : outcome = outcome' := same
  cases outcome with
  | error error => exact ⟨rfl, alike⟩
  | ok result =>
    cases result with
    | sendResult package => exact ⟨rfl, alike⟩
    | addPeer termId package logRecord =>
      obtain ⟨sessionId, cloudEvent, rfl⟩ := publish_of_addPeer uses handledRight
      -- the version of the record of the peer counts the peers of both VPNs, but the record is not seen
      have unknown : ∀ k, env.newGuid k ∉ own.ids := unknown.resolve_left nofun
      have later : ∀ k, (fun k => env.newGuid (k + 1)) k ∉ own.filters ++ other.filters := fun k => new (k + 1)
      obtain ⟨returned, after⟩ :=
        (alike.addPeer (new 0) (not_known (new 0) (unknown 0)) termId).appendEntry true logRecord apart uses.2 later
      exact ⟨by simp only [returned], after⟩

/-- A request of somebody else makes no difference. -/
theorem AlikeBrokers.handlePackage_other (alike : AlikeBrokers own other left right) (apart : Apart libraries own other)
    (uses : request.Uses other) (new : ∀ k, env.newGuid k ∉ own.filters ++ other.filters)
    (unknown : ∀ k, env.newGuid k ∉ own.ids ++ own.filters) :
    AlikeBrokers own other (left.handlePackage libraries env seq request).1 right := by
  have alike : AlikeBrokers own other (left.runHandler libraries env seq request).1 right :=
    alike.runHandler_other apart uses new unknown
  unfold Broker.handlePackage
  generalize handled : left.runHandler libraries env seq request = l at alike ⊢
  obtain ⟨left', outcome⟩ := l
  cases outcome with
  | error error => exact alike
  | ok result =>
    cases result with
    | sendResult package => exact alike
    | addPeer termId package logRecord =>
      obtain ⟨sessionId, cloudEvent, rfl⟩ := publish_of_addPeer uses handled
      have later : ∀ k, (fun k => env.newGuid (k + 1)) k ∉ own.filters ++ other.filters := fun k => new (k + 1)
      exact (alike.addPeer_other apart uses.2 (new 0) (unknown 0)).appendEntry_other true logRecord apart uses.2 later
        fun k => unknown (k + 1)

/-! ## Runs -/

variable {vpn : String} {e : VpnEvent E}

/-- Own events do the same on both nodes. -/
theorem AlikeBrokers.next (alike : AlikeBrokers own other left right) (apart : Apart libraries own other)
    (keeps : KeepsApart own other vpn e) (mine : e.vpn = vpn) :
    (left.nextOf libraries e).2 = (right.nextOf libraries e).2 ∧
      AlikeBrokers own other (left.nextOf libraries e).1 (right.nextOf libraries e).1 := by
  obtain ⟨vpn', event⟩ := e
  obtain ⟨uses, new, unknown⟩ := keeps
  rw [if_pos mine] at uses
  cases event with
  | append topic record leads newGuid => exact ⟨rfl, (alike.appendEntry leads record apart uses new).2⟩
  | request seq request env =>
    refine alike.handlePackage apart uses new (unknown.imp_left ?_)
    rintro ⟨-, seq', userAgent, env', hello⟩
    exact ⟨userAgent, (BrokerEvent.request.inj hello).2.1⟩

/-- Events of somebody else make no difference. -/
theorem AlikeBrokers.next_other (alike : AlikeBrokers own other left right) (apart : Apart libraries own other)
    (keeps : KeepsApart own other vpn e) (foreign : e.vpn ≠ vpn) :
    AlikeBrokers own other (left.nextOf libraries e).1 right := by
  obtain ⟨vpn', event⟩ := e
  obtain ⟨uses, new, unknown⟩ := keeps
  rw [if_neg foreign] at uses
  have hidden : ∀ k, event.newGuid k ∉ own.ids ++ own.filters := fun k =>
    not_known (new k) (unknown.resolve_left (fun hello => foreign hello.1) k)
  cases event with
  | append topic record leads newGuid => exact alike.appendEntry_other leads record apart uses new hidden
  | request seq request env => exact alike.handlePackage_other apart uses new hidden

/-- **VPNs are isolated** in every run, on any node, in which the names of the VPN and those of the others are apart. -/
theorem isolated_of_apart {broker : Broker} {events : List (VpnEvent E)} (apart : Apart libraries own other)
    (owned : ∀ entity ∈ broker.entities.nodeStates, Owned own other entity)
    (keeps : ∀ e ∈ events, KeepsApart own other vpn e) : Isolated libraries vpn broker events := by
  -- the two runs begin at the same node, and stay alike to the sessions of the VPN
  have start : AlikeBrokers own other broker broker := ⟨⟨rfl, owned, owned⟩, fun _ _ => rfl⟩
  refine notInterfered_of_unwinding (AlikeBrokers own other) (fun left right e alike keeps mine => ?_)
    (fun left right e alike keeps foreign => ?_) start keeps
  · exact alike.next apart keeps (of_decide_eq_true mine)
  · exact alike.next_other apart keeps (by simpa using foreign)

end

/-- A node with two VPNs and a client of each. -/
def twoVpns : Broker :=
  [.request "1" (.addVpn "shop") (guidEnv "guid1"),
    .request "2" (.addClient "shop" "client" [.SUB, .PUB]) (guidEnv "guid2"),
    .request "3" (.addVpn "bank") (guidEnv "guid3"),
    .request "4" (.addClient "bank" "client" [.SUB, .PUB]) (guidEnv "guid4")].foldl
    (fun broker event => (broker.next oneEvent event).1) Broker.empty

/-- A client of one VPN subscribes, and one of the other says HELLO. -/
def shopSubscribes : List (VpnEvent Unit) :=
  [⟨"shop", .request "5" (.hello ⟨"shop", "client", "", 0, "", "", .SUB, 0, false, none⟩) (guidEnv "guid5")⟩,
    ⟨"shop", .request "6" (.subscribe "guid5" "group" ["orders"]) (guidEnv "guid6")⟩,
    ⟨"bank", .request "7" (.hello ⟨"bank", "client", "", 0, "", "", .PUB, 0, false, none⟩) (guidEnv "guid7")⟩]

def shopNames : Names := ⟨["shop_client", "guid5"], ["orders"], ["group"], ["orders"]⟩

def bankNames : Names := ⟨["bank_client", "guid7"], ["bills"], ["accounts"], ["bills"]⟩

/-- The names of the two VPNs are apart. -/
theorem apart_shop_bank : Apart oneEvent shopNames bankNames where
  topics := by decide
  groups := by
    unfold QueueStore.Separate
    decide
  filters := by decide
  misses := by decide
  missed := by decide

/-- A request that draws no name as a GUID, unless it is the id of the session. -/
theorem keepsApart_guidEnv {vpn seq guid : String} {request : Request Unit}
    (uses : request.Uses (if vpn = "shop" then shopNames else bankNames))
    (guids : ∀ name ∈ shopNames.filters ++ bankNames.filters, ¬ guid.toList <+: name.toList)
    (ids : (vpn = "shop" ∧ ∃ userAgent, request = .hello userAgent) ∨
      ∀ name ∈ shopNames.ids, ¬ guid.toList <+: name.toList) :
    KeepsApart shopNames bankNames "shop" ⟨vpn, .request seq request (guidEnv guid)⟩ where
  uses := uses
  guids k member := guidEnv_ne (guids _ member) k rfl
  ids := by
    rcases ids with ⟨own, userAgent, hello⟩ | apart
    · exact .inl ⟨own, seq, userAgent, guidEnv guid, by rw [hello]⟩
    · exact .inr fun k member => guidEnv_ne (apart _ member) k rfl

/-- Another VPN publishes bills, and the shop reads its own orders. -/
theorem isolated_ordersAndBills :
    Isolated oneEvent "shop" twoVpns (shopSubscribes ++
      [⟨"bank", .request "8" (.publish "guid7" "bills" ()) (guidEnv "guid8")⟩,
        ⟨"shop", .request "9" (.readNext "guid5" "group") (guidEnv "guid9")⟩]) := by
  have unrelated : ∀ entity ∈ twoVpns.entities.nodeStates,
      ¬ (entity.entityType = StandardEntityTypes.messageExchange ∨
        ∃ topicFilter ∈ shopNames.filters ++ bankNames.filters, entity.entityId = some topicFilter) := by decide
  refine isolated_of_apart apart_shop_bank (fun entity member named => absurd named (unrelated entity member)) ?_
  intro e member
  simp only [shopSubscribes, List.cons_append, List.nil_append, List.mem_cons, List.not_mem_nil, or_false] at member
  rcases member with rfl | rfl | rfl | rfl | rfl
  · have client : Client.buildId (some "shop") (some "client") ∈ shopNames.ids := by decide
    exact keepsApart_guidEnv client (by decide) (.inl ⟨rfl, _, rfl⟩)
  · exact keepsApart_guidEnv ⟨by decide, by decide, by decide⟩ (by decide) (.inr (by decide))
  · have client : Client.buildId (some "bank") (some "client") ∈ bankNames.ids := by decide
    exact keepsApart_guidEnv client (by decide) (.inr (by decide))
  · exact keepsApart_guidEnv ⟨by decide, by decide⟩ (by decide) (.inr (by decide))
  · exact keepsApart_guidEnv ⟨by decide, by decide⟩ (by decide) (.inr (by decide))

/-- The client of one VPN reads what the client of the other has published. -/
theorem not_isolated_sharedTopic :
    let events := shopSubscribes ++
      [⟨"bank", .request "8" (.publish "guid7" "orders" ()) (guidEnv "guid8")⟩,
        ⟨"shop", .request "9" (.readNext "guid5" "group") (guidEnv "guid9")⟩]
    Along (fun broker e => some (Broker.nextOf oneEvent broker e).1) (fun broker e => ofVpn oneEvent broker e)
        twoVpns events ∧
      ¬ Isolated oneEvent "shop" twoVpns events := by
  intro events
  refine ⟨by decide, fun isolated => ?_⟩
  have answers := congrArg (List.map Prod.snd) isolated
  revert answers
  decide

end FaasNet.EventMesh.Runtime
