import FaasNet.EventMesh.Routing
import FaasNet.RaftConsensus.PeerHost

/-!
# Filters that are regular expressions

A filter is stored as it is given and compiled for every message, after the record is in the log, and before any queue
has got it. One filter that is no regular expression takes the messages of all topics from all queues. What a filter
matches is searched for anywhere in the topic, so that a filter without special characters also selects the topics that
contain it.
-/

namespace FaasNet.EventMesh.Runtime

open FaasNet.Lib FaasNet.RaftConsensus
open StandardEntityTypes (queue)

section
variable {E : Type} (libraries : Libraries E)

/-! ## Appending -/

/-- A peer, and the node state store that its message exchanges and queues are in. -/
structure EventMeshPeer where
  host : PeerHost String
  entities : InMemoryEntities

namespace EventMeshPeer
variable (peer : EventMeshPeer) (newGuid : Nat → String) (record : LogRecord String) (forceAdd : Bool)

/-- `AddEntry`; it says whether it returns. -/
def addEntry : EventMeshPeer × Bool :=
  if peer.host.state ≠ .LEADER ∧ forceAdd = false then (peer, true)
  else
    match getQueueNames libraries peer.host.info.termId peer.entities with
    | none => (peer, false)
    | some queueNames => ({ peer with entities := appendMessage record.value newGuid queueNames peer.entities }, true)

/-- `AppendEntry`: the log and the info of the peer come first. -/
def appendEntry : EventMeshPeer × Bool :=
  addEntry libraries { peer with host := peer.host.appendEntry record } newGuid record forceAdd

/-- It does to the store what an append of the broker does. -/
theorem entities_appendEntry (peers : List TopicPeer) :
    (peer.appendEntry libraries newGuid record forceAdd).1.entities =
      ((⟨peer.entities, peers⟩ : Broker).appendEntry libraries newGuid (addsEntry peer.host.state forceAdd)
        peer.host.info.termId record).1.entities := by
  have state : (peer.host.appendEntry record).state = peer.host.state := rfl
  have topic : (peer.host.appendEntry record).info.termId = peer.host.info.termId := rfl
  unfold appendEntry addEntry Broker.appendEntry addsEntry
  simp only [state, topic]
  by_cases refuses : peer.host.state ≠ .LEADER ∧ forceAdd = false
  · simp [refuses]
  · have leads : (decide (peer.host.state = .LEADER) || forceAdd) = true := by
      by_contra none
      exact refuses (by simpa using none)
    rw [if_neg refuses, if_pos leads]
    cases getQueueNames libraries peer.host.info.termId peer.entities <;> rfl

/-- The exchanges that are stored, in their last version. -/
def exchanges : List Entity := peer.entities.getAllLastEntityTypes StandardEntityTypes.messageExchange

/-- A record that the peer appends gets to every queue of an exchange whose filter selects the topic; and if the append
throws, the peer and the queues are as they were. -/
def NotBlocked : Prop :=
  (∀ entity ∈ peer.exchanges, ∀ exchange topicFilter,
    entity.value.readMessageExchange libraries.json = some (some exchange) → exchange.topicFilter = some topicFilter →
    Selects libraries topicFilter peer.host.info.termId → ∀ queueName ∈ exchange.queueNames,
      Receives queueName record.value newGuid peer.entities (peer.appendEntry libraries newGuid record forceAdd).1.entities) ∧
  ((peer.appendEntry libraries newGuid record forceAdd).2 = false →
    (peer.appendEntry libraries newGuid record forceAdd).1 = peer)

/-- An exchange with a filter that can be compiled. -/
def Compiles (entity : Entity) (topic : String) : Prop :=
  ∃ exchange topicFilter, entity.value.readMessageExchange libraries.json = some (some exchange) ∧
    exchange.topicFilter = some topicFilter ∧ ValidFilter libraries topicFilter topic

variable {libraries} {peer} {newGuid} {record} {forceAdd}

theorem compiles_iff {entity : Entity} {topic : String} :
    Compiles libraries entity topic ↔ queueNamesOf libraries topic entity ≠ none := by
  unfold Compiles queueNamesOf
  constructor
  · rintro ⟨exchange, topicFilter, read, own, valid⟩
    obtain ⟨found, matched, -⟩ := isMatch_of_valid own valid
    simp [read, matched]
  · intro some
    split at some
    next exchange read =>
      have matched : exchange.isMatch libraries topic ≠ none := by simpa using some
      unfold MessageExchange.isMatch at matched
      split at matched
      next => exact absurd rfl matched
      next topicFilter own =>
        refine ⟨exchange, topicFilter, read, own, ?_⟩
        unfold ValidFilter
        split at matched
        next wildcard => exact .inl wildcard
        next => exact .inr (Option.isSome_iff_ne_none.mpr matched)
    next => exact absurd rfl some

/-- The log has one record more, whatever happens. -/
theorem appendEntry_ne : (peer.appendEntry libraries newGuid record forceAdd).1 ≠ peer := by
  intro same
  have log : (peer.appendEntry libraries newGuid record forceAdd).1.host.logRecords = peer.host.logRecords ++ [record] := by
    unfold appendEntry addEntry
    split
    · rfl
    · split <;> rfl
  rw [same] at log
  simpa using congrArg List.length log

theorem notBlocked_of_compiles (leads : peer.host.state = .LEADER)
    (each : ∀ entity ∈ peer.exchanges, Compiles libraries entity peer.host.info.termId) :
    peer.NotBlocked libraries newGuid record forceAdd := by
  have given : ∀ entity ∈ peer.exchanges, queueNamesOf libraries peer.host.info.termId entity =
      some ((queueNamesOf libraries peer.host.info.termId entity).getD []) := by
    intro entity member
    obtain ⟨names, some⟩ := Option.ne_none_iff_exists'.mp (compiles_iff.mp (each entity member))
    rw [some, Option.getD_some]
  have got := congrArg (Option.map fun names => names.flatten.eraseDups) (mapM_of_forall given)
  have appended : peer.appendEntry libraries newGuid record forceAdd =
      (⟨peer.host.appendEntry record, appendMessage record.value newGuid (peer.exchanges.map fun entity =>
        (queueNamesOf libraries peer.host.info.termId entity).getD []).flatten.eraseDups peer.entities⟩, true) := by
    have state : (peer.host.appendEntry record).state = .LEADER := leads
    have goes : ¬ ((peer.host.appendEntry record).state ≠ .LEADER ∧ forceAdd = false) := fun refuses => refuses.1 state
    unfold appendEntry addEntry
    dsimp only
    rw [if_neg goes]
    have names : getQueueNames libraries (peer.host.appendEntry record).info.termId peer.entities = _ := got
    rw [names]
    rfl
  rw [NotBlocked, appended]
  refine ⟨fun entity member exchange topicFilter read own selects queueName listed => ?_, nofun⟩
  refine (queueRecords_appendMessage queueName record.value (nodup_eraseDups _) newGuid peer.entities).1 ?_
  refine List.mem_eraseDups.mpr (List.mem_flatten.mpr ⟨exchange.queueNames, List.mem_map.mpr ⟨entity, member, ?_⟩, listed⟩)
  have valid : ValidFilter libraries topicFilter peer.host.info.termId :=
    selects.imp id fun matched => by rw [matched]; rfl
  obtain ⟨found, matched, right⟩ := isMatch_of_valid own valid
  rw [queueNamesOf, read]
  simp [matched, right.mpr selects]

/-- **Messages are delivered exactly if every stored filter is a regular expression.** -/
theorem notBlocked_iff (leads : peer.host.state = .LEADER) :
    peer.NotBlocked libraries newGuid record forceAdd ↔
      ∀ entity ∈ peer.exchanges, Compiles libraries entity peer.host.info.termId := by
  refine ⟨fun notBlocked entity member => ?_, notBlocked_of_compiles leads⟩
  by_contra bad
  -- the names cannot be gathered, and the record is in the log already
  have none : getQueueNames libraries (peer.host.appendEntry record).info.termId peer.entities = .none := by
    have stops : queueNamesOf libraries peer.host.info.termId entity = .none := by
      by_contra some
      exact bad (compiles_iff.mpr some)
    exact congrArg (Option.map fun names => names.flatten.eraseDups) (mapM_eq_none.mpr ⟨entity, member, stops⟩)
  refine appendEntry_ne (notBlocked.2 ?_)
  unfold appendEntry addEntry
  have goes : ¬ ((peer.host.appendEntry record).state ≠ .LEADER ∧ forceAdd = false) := fun refuses => refuses.1 leads
  dsimp only
  rw [if_neg goes, none]

end EventMeshPeer

end

/-- A filter matches the topics that contain it, but for a bracket, which is no regular expression. -/
def plainFilters : Libraries Unit :=
  { oneEvent with isMatch := fun topicFilter topic =>
      if topicFilter = "[" then none else some (decide (topicFilter.toList <:+: topic.toList)) }

/-- A leader of the topic, over the store of a node after these events. -/
def leaderAfter (events : List (BrokerEvent Unit)) : EventMeshPeer where
  host := { PeerHost.start (.localhost 4000) {} ⟨"topic", 0, 0⟩ (Env.calm 0 []) with state := .LEADER }
  entities := (events.foldl (fun broker event => (broker.next plainFilters event).1) Broker.empty).entities

theorem notBlocked_subscribedTwice :
    (leaderAfter subscribedTwice).NotBlocked plainFilters (fun _ => "guid") ⟨1, "message"⟩ false := by
  have exchanges : ∀ entity ∈ (leaderAfter subscribedTwice).exchanges, queueNamesOf plainFilters "topic" entity ≠ none := by
    decide
  exact (EventMeshPeer.notBlocked_iff rfl).mpr fun entity member => EventMeshPeer.compiles_iff.mpr (exchanges entity member)

/-- One more client subscribes with what is no regular expression, and is answered with SUCCESS. -/
def subscribedWithBracket : List (BrokerEvent Unit) :=
  subscribedTwice ++ [.request "6" (.subscribe "guid3" "others" ["["]) (guidEnv "guid6")]

/-- The message gets into no queue, and the append that throws leaves a record in the log. -/
theorem blocked_subscribedWithBracket :
    ((subscribedTwice.foldl (fun broker event => (broker.next plainFilters event).1) Broker.empty).next plainFilters
      (.request "6" (.subscribe "guid3" "others" ["["]) (guidEnv "guid6"))).2 =
        some (Client.PackageResponseBuilder.subscription "6" "others") ∧
    ¬ (leaderAfter subscribedWithBracket).NotBlocked plainFilters (fun _ => "guid") ⟨1, "message"⟩ false := by
  refine ⟨by decide, fun notBlocked => ?_⟩
  have log := congrArg (fun peer => peer.host.logRecords.length) (notBlocked.2 (by decide))
  revert log
  decide

/-! ## Filters without special characters -/

section
variable {E : Type} (libraries : Libraries E)

/-- The characters that mean something in a regular expression. -/
def metacharacters : List Char := ['\\', '*', '+', '?', '|', '{', '[', '(', ')', '^', '$', '.']

/-- A filter that means itself. -/
def Literal (topicFilter : String) : Prop := ∀ c ∈ topicFilter.toList, c ∉ metacharacters

instance (topicFilter : String) : Decidable (Literal topicFilter) :=
  List.decidableBAll (fun c => c ∉ metacharacters) topicFilter.toList

/-- `Regex.IsMatch` searches for such a pattern anywhere in the input. -/
def Searches : Prop :=
  ∀ pattern, Literal pattern → ∀ input, libraries.isMatch pattern input = some (decide (pattern.toList <:+: input.toList))

/-- An exchange with this filter selects the topic exactly if it is the filter; and in every run, a queue that was
subscribed with this filter only gets no message of the topic if it is another one. -/
structure OneTopic (topicFilter topic : String) : Prop where
  isMatch : ∀ exchange : MessageExchange, exchange.topicFilter = some topicFilter →
    (exchange.isMatch libraries topic = some true ↔ topic = topicFilter)
  receives : ∀ (events : List (BrokerEvent E)) (state : Broker × List (Answered E)),
    Along (Broker.step libraries) (FiltersApart libraries) (Broker.empty, []) events →
    run (Broker.step libraries) (Broker.empty, []) events = some state →
    ∀ queueName, (∀ made ∈ accepted state.2, made.2 = queueName → made.1 = topicFilter) →
    (∀ made ∈ accepted state.2, ValidFilter libraries made.1 topic) → topic ≠ topicFilter →
    ∀ (record : LogRecord String) (newGuid : Nat → String) (peerState : PeerStates) (forceAdd : Bool),
      queueRecords queueName (state.1.appendEntry libraries newGuid (addsEntry peerState forceAdd) topic record).1.entities =
        queueRecords queueName state.1.entities

variable {libraries} {topicFilter topic : String}

theorem selects_literal (searches : Searches libraries) (literal : Literal topicFilter) :
    Selects libraries topicFilter topic ↔ topicFilter.toList <:+: topic.toList := by
  have notWildcard : topicFilter ≠ filterWildcard := by
    rintro rfl
    revert literal
    decide
  simp [Selects, notWildcard, searches topicFilter literal topic]

theorem isMatch_literal (searches : Searches libraries) (literal : Literal topicFilter) {exchange : MessageExchange}
    (own : exchange.topicFilter = some topicFilter) :
    exchange.isMatch libraries topic = some true ↔ topicFilter.toList <:+: topic.toList := by
  have valid : ValidFilter libraries topicFilter topic := .inr (by rw [searches topicFilter literal topic]; rfl)
  obtain ⟨found, matched, right⟩ := isMatch_of_valid own valid
  rw [matched, Option.some.injEq, right, selects_literal searches literal]

/-- **A filter without special characters selects one topic** exactly as long as no other topic contains it. -/
theorem oneTopic_iff (searches : Searches libraries) (literal : Literal topicFilter) :
    OneTopic libraries topicFilter topic ↔ ¬ (topic ≠ topicFilter ∧ topicFilter.toList <:+: topic.toList) := by
  constructor
  · rintro oneTopic ⟨other, contains⟩
    let exchange : MessageExchange := { topicFilter := some topicFilter }
    have matched : exchange.isMatch libraries topic = some true := (isMatch_literal searches literal rfl).mpr contains
    exact other ((oneTopic.isMatch _ rfl).mp matched)
  · intro apart
    constructor
    · intro exchange own
      rw [isMatch_literal searches literal own]
      constructor
      · intro contains
        by_contra other
        exact apart ⟨other, contains⟩
      · rintro rfl
        exact List.infix_rfl
    · intro events state filtersApart reached queueName only valid other record newGuid peerState forceAdd
      have routes : Routes libraries state := ((recorded_of_filtersApart filtersApart).reached reached).routes
      have routed := routes topic record newGuid peerState forceAdd valid
      split at routed
      next =>
        refine (routed queueName).2 ?_
        rintro ⟨topicFilter', made, selects⟩
        obtain rfl : topicFilter' = topicFilter := only _ made rfl
        exact apart ⟨other, (selects_literal searches literal).mp selects⟩
      next => rw [routed]

end

/-- A filter does not select the topic of another one. -/
theorem oneTopic_orders : OneTopic oneEvent "person" "order" :=
  (oneTopic_iff (fun _ _ _ => rfl) (by decide)).mpr (by decide)

/-- The topic that contains the filter is selected too. -/
theorem not_oneTopic_personCreated : ¬ OneTopic oneEvent "person" "person.created" := by
  intro oneTopic
  have matched : MessageExchange.isMatch oneEvent { topicFilter := some "person" } "person.created" = some true := by decide
  have same := (oneTopic.isMatch { topicFilter := some "person" } rfl).mp matched
  revert same
  decide

end FaasNet.EventMesh.Runtime
