import FaasNet.EventMesh.Sessions

/-!
# Closed sessions

After DISCONNECT, what is last under the id of a session is a closed session or an exchange, which is read as a
session without a purpose. PUBLISH and READ_NEXT refuse both. SUBSCRIBE refuses an exchange and a session that is
not for subscribers, but takes a closed one that is: it does not ask whether the session is active.
-/

namespace FaasNet.EventMesh.Runtime

open FaasNet.Lib FaasNet.RaftConsensus
open IEntityStore (getLastEntityId)
open FaasNet.EventMesh.Client (Package UserAgent)

section
variable {E : Type} (libraries : Libraries E)

/-! ## The property -/

/-- A HELLO was answered with the id of the session. -/
def Given (past : List (Answered E)) (sessionId : String) : Prop :=
  ∃ answered ∈ past, ∃ seq userAgent env, answered.event = .request seq (.hello userAgent) env ∧
    answered.answer = some (Client.PackageResponseBuilder.hello seq sessionId)

/-- And later a DISCONNECT of the session was answered with SUCCESS. -/
def Closed (past : List (Answered E)) (sessionId : String) : Prop :=
  ∃ earlier answered later, past = earlier ++ answered :: later ∧ Given earlier sessionId ∧
    (∃ seq clientId env, answered.event = .request seq (.disconnect clientId sessionId) env) ∧
    Success answered.answer

/-- A SUBSCRIBE, PUBLISH or READ_NEXT that names a closed session is not answered with SUCCESS and changes
nothing. -/
def StaysClosed (state : Broker × List (Answered E)) (event : BrokerEvent E) : Prop :=
  ∀ sessionId, Closed state.2 sessionId → event.sessionId = some sessionId → event.purpose.isSome →
    ¬ Success (state.1.next libraries event).2 ∧ (state.1.next libraries event).1 = state.1

/-- `Guid.NewGuid` returns no id of a record. -/
def Fresh (state : Broker × List (Answered E)) (event : BrokerEvent E) : Prop :=
  ∀ k, ∀ entity ∈ state.1.entities.nodeStates, entity.entityId ≠ some (event.newGuid k)

/-- A SUBSCRIBE does not name a closed session that is for subscribers. -/
def SubscribesActive (state : Broker × List (Answered E)) (event : BrokerEvent E) : Prop :=
  ∀ seq sessionId groupId topicFilters env, event = .request seq (.subscribe sessionId groupId topicFilters) env →
    ∀ session, ClientSessionStore.get libraries.json (some sessionId) state.1.entities = some (some session) →
      session.purpose = some .SUB → session.state = .ACTIVE

/-! ## Records under the id of a session -/

/-- A record that no session can be used with. -/
def Harmless (entity : Entity) : Prop :=
  (∃ exchange, entity.value = .messageExchange exchange) ∨
    ∃ session, entity.value = .clientSession session ∧ session.state = .FINISH

/-- The records under the id of a session that was given: those that HELLO and DISCONNECT write, and exchanges. -/
structure Kept (sessionId : String) (entities : InMemoryEntities) : Prop where
  exists_last : ∃ entity, getLastEntityId (some sessionId) entities = some entity
  each : ∀ entity ∈ entities.nodeStates, entity.entityId = some sessionId →
    Harmless entity ∨ ∃ session, entity.value = .clientSession session ∧ entity.entityVersion = 0
  own : ∀ entity ∈ entities.nodeStates, entity.entityId = some sessionId → ∀ session,
    entity.value = .clientSession session → session.id = some sessionId

/-- What is last under the id of a session that was closed. -/
def LastHarmless (sessionId : String) (entities : InMemoryEntities) : Prop :=
  ∃ entity, getLastEntityId (some sessionId) entities = some entity ∧ Harmless entity

variable {libraries} {sessionId : String}

/-- The last record is an old one or the new one. -/
theorem getLastEntityId_add_cases {entity last : Entity} {id : Option String} {entities : InMemoryEntities}
    (found : getLastEntityId id (IEntityStore.add entity entities) = some last) :
    getLastEntityId id entities = some last ∨ last = entity := by
  rw [InMemoryEntities.getLastEntityId_add] at found
  split at found
  · cases before : getLastEntityId id entities with
    | none => exact .inr (by simpa [before] using found.symm)
    | some previous =>
      rw [before, Option.elim_some] at found
      split at found
      · exact .inr (Option.some.inj found).symm
      · exact .inl found
  · exact .inl found

theorem getLastEntityId_add_isSome {entity last : Entity} {id : Option String} {entities : InMemoryEntities}
    (found : getLastEntityId id entities = some last) :
    ∃ last', getLastEntityId id (IEntityStore.add entity entities) = some last' := by
  rw [InMemoryEntities.getLastEntityId_add]
  split
  · exact ⟨_, rfl⟩
  · exact ⟨last, found⟩

theorem LastHarmless.add {entities : InMemoryEntities} (harmless : LastHarmless sessionId entities) {entity : Entity}
    (written : entity.entityId = some sessionId → Harmless entity) :
    LastHarmless sessionId (IEntityStore.add entity entities) := by
  obtain ⟨last, found, each⟩ := harmless
  obtain ⟨last', found'⟩ : ∃ last', getLastEntityId (some sessionId) (IEntityStore.add entity entities) = some last' :=
    getLastEntityId_add_isSome found
  refine ⟨last', found', ?_⟩
  rcases getLastEntityId_add_cases found' with old | rfl
  · rwa [← Option.some.inj (found.symm.trans old)]
  · exact written (mem_of_getLastEntityId found').2

theorem LastHarmless.append {entities : InMemoryEntities} (harmless : LastHarmless sessionId entities)
    {added : List Entity} (written : ∀ entity ∈ added, entity.entityId = some sessionId → Harmless entity) :
    LastHarmless sessionId ⟨entities.nodeStates ++ added⟩ := by
  induction added generalizing entities with
  | nil => simpa using harmless
  | cons entity added ih =>
    have next := ih (harmless.add (written entity List.mem_cons_self)) fun e inside =>
      written e (List.mem_cons_of_mem _ inside)
    simpa [IEntityStore.add] using next

variable {broker : Broker} {event : BrokerEvent E}

theorem Kept.exists_mem {entities : InMemoryEntities} (kept : Kept sessionId entities) :
    ∃ entity ∈ entities.nodeStates, entity.entityId = some sessionId := by
  obtain ⟨entity, found⟩ := kept.exists_last
  exact ⟨entity, mem_of_getLastEntityId found⟩

/-- What is kept under the id of a session is read as a client. -/
theorem Kept.client_ne_null {entities : InMemoryEntities} (kept : Kept sessionId entities) (json : JsonReader) :
    getEntity (EntityValue.readClient json) (some sessionId) entities ≠ some none := by
  obtain ⟨entity, found⟩ := kept.exists_last
  obtain ⟨member, id⟩ := mem_of_getLastEntityId found
  rw [getEntity, found, Option.elim_some]
  rcases kept.each entity member id with (⟨exchange, value⟩ | ⟨session, value, -⟩) | ⟨session, value, -⟩ <;>
    simp [value, EntityValue.readClient]

/-- **What an event can write under the id of a session**: it is harmless, as long as the GUIDs are new. -/
theorem Kept.written (kept : Kept sessionId broker.entities)
    (fresh : ∀ k, ∀ entity ∈ broker.entities.nodeStates, entity.entityId ≠ some (event.newGuid k)) {entity : Entity}
    (written : WrittenBy libraries broker event entity) (named : entity.entityId = some sessionId) :
    Harmless entity ∧ ∀ session, entity.value = .clientSession session → session.id = some sessionId := by
  obtain ⟨present, member, id⟩ := kept.exists_mem
  cases written with
  | @session seq userAgent env session hello created =>
    have drawn : some sessionId = some (env.newGuid 0) := named.symm.trans (createSession_eq_ok created).1
    have own : env.newGuid 0 = event.newGuid 0 := by rw [hello]; rfl
    rw [own] at drawn
    exact absurd (id.trans drawn) (fresh 0 present member)
  | @closed seq clientId sessionId' env session disconnect found =>
    refine ⟨.inr ⟨session.close, rfl, rfl⟩, fun session' same => ?_⟩
    obtain rfl := EntityValue.clientSession.inj same
    exact named
  | exchange exchange version => exact ⟨.inl ⟨exchange, rfl⟩, fun session same => by cases same⟩
  | client client version unknown =>
    -- a client is added only where none is found under its id, but a session would be read as one
    have same : Client.buildId client.vpn client.clientId = sessionId := Option.some.inj named
    unfold ClientStore.get at unknown
    rw [same] at unknown
    exact absurd unknown (kept.client_ne_null libraries.json)
  | other k drawn noSession => exact absurd (id.trans (named.symm.trans drawn)) (fresh k present member)

theorem Kept.append {entities : InMemoryEntities} (kept : Kept sessionId entities) {added : List Entity}
    (written : ∀ entity ∈ added, entity.entityId = some sessionId →
      Harmless entity ∧ ∀ session, entity.value = .clientSession session → session.id = some sessionId) :
    Kept sessionId ⟨entities.nodeStates ++ added⟩ := by
  obtain ⟨entity, member, id⟩ := kept.exists_mem
  refine ⟨?_, fun e inside named => ?_, fun e inside named => ?_⟩
  · obtain ⟨last, found, -⟩ := find?_descending_of_mem Entity.entityVersion
      (fun e => decide (e.entityId = some sessionId)) (List.mem_append_left added member) (by simpa using id)
    exact ⟨last, found⟩
  · rcases List.mem_append.mp inside with old | new
    · exact kept.each e old named
    · exact .inl (written e new named).1
  · rcases List.mem_append.mp inside with old | new
    · exact kept.own e old named
    · exact (written e new named).2

/-! ## Steps -/

theorem Kept.next (kept : Kept sessionId broker.entities)
    (fresh : ∀ k, ∀ entity ∈ broker.entities.nodeStates, entity.entityId ≠ some (event.newGuid k)) :
    Kept sessionId (broker.next libraries event).1.entities := by
  obtain ⟨added, appended, written⟩ : Writes libraries broker event (broker.next libraries event).1.entities :=
    next_writes event
  have after := kept.append fun entity new named => kept.written fresh (written entity new) named
  rwa [← appended] at after

theorem LastHarmless.next (harmless : LastHarmless sessionId broker.entities) (kept : Kept sessionId broker.entities)
    (fresh : ∀ k, ∀ entity ∈ broker.entities.nodeStates, entity.entityId ≠ some (event.newGuid k)) :
    LastHarmless sessionId (broker.next libraries event).1.entities := by
  obtain ⟨added, appended, written⟩ : Writes libraries broker event (broker.next libraries event).1.entities :=
    next_writes event
  have after := harmless.append fun entity new named => (kept.written fresh (written entity new) named).1
  rwa [← appended] at after

/-- The first record under an id. -/
theorem kept_add_of_fresh {entities : InMemoryEntities}
    (fresh : ∀ entity ∈ entities.nodeStates, entity.entityId ≠ some sessionId) {session : ClientSession} (id : session.id = some sessionId) :
    Kept sessionId (ClientSessionStore.add session entities) := by
  have none : getLastEntityId (some sessionId) entities = none :=
    find?_descending_eq_none.mpr fun entity member => by simpa using fresh entity member
  unfold ClientSessionStore.add addEntity
  rw [id, none]
  refine ⟨⟨_, LawfulEntityStore.last_add rfl (by simp [none])⟩, fun entity inside named => ?_,
    fun entity inside named => ?_⟩
  all_goals
    rcases List.mem_append.mp inside with old | new
    · exact absurd named (fresh entity old)
    obtain rfl := List.mem_singleton.mp new
  · exact .inr ⟨session, rfl, rfl⟩
  · intro session' same
    rw [← EntityValue.clientSession.inj same, id]

/-- The node after a HELLO that is answered with an id. -/
theorem kept_of_hello {seq : String} {userAgent : UserAgent} {env : RequestEnv}
    (fresh : ∀ entity ∈ broker.entities.nodeStates, entity.entityId ≠ some (env.newGuid 0))
    (answered : (broker.next libraries (.request seq (.hello userAgent) env)).2 =
      some (Client.PackageResponseBuilder.hello seq sessionId)) :
    Kept sessionId (broker.next libraries (.request seq (.hello userAgent) env)).1.entities := by
  simp only [Broker.next, Broker.handlePackage, Broker.runHandler, Broker.hello] at answered ⊢
  cases created : broker.createSession libraries env userAgent with
  | error error =>
    rw [created] at answered
    exact absurd ⟨_, answered, rfl⟩ (not_success_error .HELLO_REQUEST error)
  | ok session =>
    rw [created] at answered
    obtain rfl : env.newGuid 0 = sessionId := by
      have body := congrArg Client.Package.body (Option.some.inj answered)
      simpa [Client.PackageResponseBuilder.hello] using body
    exact kept_add_of_fresh fresh (createSession_eq_ok created).1

/-- The session that is found under the id is written again, closed: over an open one as the last record, over a closed
one as another closed one, and under no id if an exchange was taken for it. -/
theorem lastHarmless_close (kept : Kept sessionId broker.entities) {session : ClientSession}
    (found : broker.getSession libraries sessionId = .ok session) :
    LastHarmless sessionId (ClientSessionStore.add session.close broker.entities) := by
  obtain ⟨entity, last, read⟩ := getSession_eq_ok found
  obtain ⟨member, id⟩ := mem_of_getLastEntityId last
  have closed : ∀ version,
      Harmless ⟨StandardEntityTypes.clientSession, session.id, version, .clientSession session.close⟩ :=
    fun version => .inr ⟨session.close, rfl, rfl⟩
  rcases kept.each entity member id with harmless | ⟨stored, value, version⟩
  · exact LastHarmless.add ⟨entity, last, harmless⟩ fun _ => closed _
  · obtain rfl : stored = session := by simpa [value, EntityValue.readClientSession] using read
    have own : stored.id = some sessionId := kept.own entity member id stored value
    -- the record that HELLO wrote has version 0, so the closed one becomes the last
    refine ⟨_, LawfulEntityStore.last_add own fun previous before => ?_, closed _⟩
    obtain rfl : entity = previous := Option.some.inj (last.symm.trans before)
    have next : nextVersion 0 = 1 := by decide
    simp only [ClientSession.close, own, last, versionAfter, Option.elim_some, version, next]
    decide

/-- The node after a DISCONNECT that is answered with SUCCESS. -/
theorem lastHarmless_of_disconnect {seq clientId : String} {env : RequestEnv} (kept : Kept sessionId broker.entities)
    (success : Success (broker.next libraries (.request seq (.disconnect clientId sessionId) env)).2) :
    LastHarmless sessionId (broker.next libraries (.request seq (.disconnect clientId sessionId) env)).1.entities := by
  obtain ⟨result, returned⟩ := returned_of_success success
  simp only [Broker.next, Broker.handlePackage, Broker.runHandler, Broker.disconnect] at returned ⊢
  cases found : broker.getActiveSession libraries sessionId with
  | error error => simp [found] at returned
  | ok session => exact lastHarmless_close kept (getSession_of_getActiveSession found)

/-! ## Refusals -/

/-- A session that is read from a harmless record is of no purpose, or it is closed. -/
theorem Harmless.session {entity : Entity} (harmless : Harmless entity) {session : ClientSession}
    (read : entity.value.readClientSession libraries.json = some (some session)) :
    session.purpose = none ∨ session.state = .FINISH := by
  rcases harmless with ⟨exchange, value⟩ | ⟨stored, value, finished⟩
  · rw [value] at read
    obtain rfl : {} = session := Option.some.inj (Option.some.inj read)
    exact .inl (by decide)
  · rw [value] at read
    obtain rfl : stored = session := Option.some.inj (Option.some.inj read)
    exact .inr finished

theorem checkSession_of_lastHarmless {seq : String} {request : Request E} {env : RequestEnv} {past : List (Answered E)}
    (harmless : LastHarmless sessionId broker.entities)
    (active : SubscribesActive libraries (broker, past) (.request seq request env))
    (names : request.sessionId = some sessionId) (needs : request.purpose.isSome) :
    ∃ error, broker.checkSession libraries env request = .error error := by
  cases checked : broker.checkSession libraries env request with
  | error error => exact ⟨error, rfl⟩
  | ok =>
    exfalso
    obtain ⟨purpose, needs⟩ := Option.isSome_iff_exists.mp needs
    obtain ⟨session, found, right, activeIfNeeded⟩ := session_of_checkSession names needs checked
    obtain ⟨entity, last, read⟩ := getSession_eq_ok found
    obtain ⟨entity', last', harmless⟩ := harmless
    obtain rfl : entity = entity' := Option.some.inj (last.symm.trans last')
    rcases harmless.session read with none | finished
    · rw [right] at none
      cases none
    have inactive : ¬ session.isActive (env.utcNow 0) := by simp [ClientSession.isActive, finished]
    cases request with
    | subscribe sessionId' groupId topicFilters =>
      obtain rfl := Option.some.inj names
      obtain rfl := Option.some.inj needs
      have get : ClientSessionStore.get libraries.json (some sessionId') broker.entities = some (some session) := by
        rw [ClientSessionStore.get, getEntity, last, Option.elim_some, read]
      have stillActive := active seq sessionId' groupId topicFilters env rfl session get right
      rw [finished] at stillActive
      cases stillActive
    | publish => exact inactive (activeIfNeeded rfl)
    | readNext => exact inactive (activeIfNeeded rfl)
    | _ => cases needs

/-- What names a closed session is refused. -/
theorem staysClosed_of_lastHarmless {state : Broker × List (Answered E)}
    (harmless : ∀ sessionId, Closed state.2 sessionId → LastHarmless sessionId state.1.entities)
    (active : SubscribesActive libraries state event) : StaysClosed libraries state event := by
  intro sessionId closed names needs
  cases event with
  | append topic record leads newGuid => cases names
  | request seq request env =>
    obtain ⟨error, failed⟩ := checkSession_of_lastHarmless (harmless sessionId closed) active names needs
    obtain ⟨error', refused⟩ : ∃ error, state.1.runHandler libraries env seq request = (state.1, .error error) :=
      refused_of_checkSession failed
    simp only [Broker.next, Broker.handlePackage, refused]
    exact ⟨not_success_error _ _, trivial⟩

/-! ## Runs -/

theorem given_of_closed {past : List (Answered E)} (closed : Closed past sessionId) : Given past sessionId := by
  obtain ⟨earlier, answered, later, rfl, ⟨hello, member, given⟩, -⟩ := closed
  exact ⟨hello, List.mem_append_left _ member, given⟩

theorem closed_concat {past : List (Answered E)} {answered : Answered E}
    (closed : Closed (past ++ [answered]) sessionId) :
    Closed past sessionId ∨ Given past sessionId ∧
      (∃ seq clientId env, answered.event = .request seq (.disconnect clientId sessionId) env) ∧
      Success answered.answer := by
  obtain ⟨earlier, disconnect, later, split, given, named, success⟩ := closed
  rcases later.eq_nil_or_concat with rfl | ⟨later', last, rfl⟩
  · obtain ⟨rfl, same⟩ := List.append_inj' split rfl
    obtain rfl := List.singleton_inj.mp same
    exact .inr ⟨given, named, success⟩
  · rw [List.concat_eq_append, ← List.cons_append, ← List.append_assoc] at split
    obtain ⟨rfl, -⟩ := List.append_inj' split rfl
    exact .inl ⟨earlier, disconnect, later', rfl, given, named, success⟩

/-- The records of the sessions that were given and of those that were closed. -/
structure SessionsKept (state : Broker × List (Answered E)) : Prop where
  given : ∀ sessionId, Given state.2 sessionId → Kept sessionId state.1.entities
  closed : ∀ sessionId, Closed state.2 sessionId → LastHarmless sessionId state.1.entities

theorem SessionsKept.step {state after : Broker × List (Answered E)} (sessions : SessionsKept state)
    (fresh : Fresh state event) (stepped : Broker.step libraries state event = some after) : SessionsKept after := by
  obtain rfl := Option.some.inj stepped
  refine ⟨fun sessionId given => ?_, fun sessionId closed => ?_⟩
  · obtain ⟨answered, member, seq, userAgent, env, hello, answer⟩ := given
    rcases List.mem_append.mp member with old | new
    · exact (sessions.given sessionId ⟨answered, old, seq, userAgent, env, hello, answer⟩).next fresh
    · obtain rfl := List.mem_singleton.mp new
      obtain rfl : event = .request seq (.hello userAgent) env := hello
      exact kept_of_hello (fresh 0) answer
  · rcases closed_concat closed with before | ⟨given, ⟨seq, clientId, env, disconnect⟩, success⟩
    · exact (sessions.closed sessionId before).next (sessions.given sessionId (given_of_closed before)) fresh
    · obtain rfl : event = .request seq (.disconnect clientId sessionId) env := disconnect
      exact lastHarmless_of_disconnect (sessions.given sessionId given) success

/-- **A closed session stays closed**, in every run on any node in which no SUBSCRIBE names a closed session for
subscribers. -/
theorem staysClosed_of_subscribesActive {broker : Broker} {events : List (BrokerEvent E)}
    (meets : Along (Broker.step libraries) (fun state event => Fresh state event ∧ SubscribesActive libraries state event)
      (broker, []) events) :
    Along (Broker.step libraries) (StaysClosed libraries) (broker, []) events := by
  refine along_of_invariant SessionsKept (fun _ _ _ sessions meets => sessions.step meets.1)
    (fun _ _ sessions meets => staysClosed_of_lastHarmless sessions.closed meets.2) ⟨?_, ?_⟩ meets
  · rintro sessionId ⟨answered, member, -⟩
    cases member
  · rintro sessionId ⟨earlier, answered, later, split, -⟩
    simp at split

end

/-- The GUIDs of `guidEnv` are those of no record if none begins like them. -/
theorem fresh_guidEnv {E : Type} {state : Broker × List (Answered E)} {seq guid : String} {request : Request E}
    (checked : ∀ entity ∈ state.1.entities.nodeStates, ∀ id ∈ entity.entityId, ¬ guid.toList <+: id.toList) :
    Fresh state (.request seq request (guidEnv guid)) := by
  intro k entity member named
  exact guidEnv_ne (checked entity member _ named) k rfl

/-- The client says HELLO, and disconnects. -/
def closedSession : List (BrokerEvent Unit) :=
  setUp ++
    [.request "3" (.hello ⟨"vpn", "client", "", 0, "", "", .SUB, 0, false, none⟩) (guidEnv "guid3"),
      .request "4" (.disconnect "client" "guid3") (guidEnv "guid4")]

/-- A request that does not subscribe, in a state without records that begin like its GUIDs. -/
theorem meets_guidEnv {E : Type} {libraries : Libraries E} {state : Broker × List (Answered E)} {seq guid : String}
    {request : Request E} (other : ∀ sessionId groupId topicFilters, request ≠ .subscribe sessionId groupId topicFilters)
    (checked : ∀ entity ∈ state.1.entities.nodeStates, ∀ id ∈ entity.entityId, ¬ guid.toList <+: id.toList) :
    Fresh state (.request seq request (guidEnv guid)) ∧
      SubscribesActive libraries state (.request seq request (guidEnv guid)) := by
  refine ⟨fresh_guidEnv checked, fun seq' sessionId groupId topicFilters env subscribe => ?_⟩
  obtain ⟨-, same, -⟩ := BrokerEvent.request.inj subscribe
  exact absurd same (other sessionId groupId topicFilters)

/-- A closed session that reads a message stays closed. -/
theorem staysClosed_readNext :
    Along (Broker.step oneEvent) (StaysClosed oneEvent) (Broker.empty, [])
      (closedSession ++ [.request "5" (.readNext "guid3" "group") (guidEnv "guid5")]) := by
  apply staysClosed_of_subscribesActive
  refine ⟨meets_guidEnv nofun (by decide), fun _ taken => ?_⟩
  obtain rfl := Option.some.inj taken
  refine ⟨meets_guidEnv nofun (by decide), fun _ taken => ?_⟩
  obtain rfl := Option.some.inj taken
  refine ⟨meets_guidEnv nofun (by decide), fun _ taken => ?_⟩
  obtain rfl := Option.some.inj taken
  refine ⟨meets_guidEnv nofun (by decide), fun _ taken => ?_⟩
  obtain rfl := Option.some.inj taken
  exact ⟨meets_guidEnv nofun (by decide), fun _ _ => trivial⟩

/-- A SUBSCRIBE that names the closed session is answered with SUCCESS. -/
theorem not_staysClosed_subscribe :
    ¬ Along (Broker.step oneEvent) (StaysClosed oneEvent) (Broker.empty, [])
      (closedSession ++ [.request "5" (.subscribe "guid3" "group" ["topic"]) (guidEnv "guid5")]) := by
  intro along
  unfold closedSession setUp at along
  obtain ⟨-, rest⟩ := along
  obtain ⟨-, rest⟩ := rest _ rfl
  obtain ⟨-, rest⟩ := rest _ rfl
  obtain ⟨-, rest⟩ := rest _ rfl
  obtain ⟨closed, -⟩ := rest _ rfl
  refine (closed "guid3" ⟨_, _, [], rfl, ?_, ⟨"4", "client", guidEnv "guid4", rfl⟩, ?_⟩ rfl rfl).1 ?_
  · exact ⟨_, List.mem_append_right _ (List.mem_singleton_self _), "3", _, guidEnv "guid3", rfl, by decide⟩
  · exact ⟨Client.PackageResponseBuilder.disconnect "4", by decide, rfl⟩
  · exact ⟨Client.PackageResponseBuilder.subscription "5" "group", by decide, rfl⟩

end FaasNet.EventMesh.Runtime
