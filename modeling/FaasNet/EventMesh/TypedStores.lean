import Mathlib.Data.List.Induction
import FaasNet.EventMesh.QueueStore

/-!
# Clients, sessions and exchanges in the node state store

`ClientStore`, `ClientSessionStore` and `MessageExchangeStore` keep their objects as JSON in one
`INodeStateStore`, each under an id, and look an object up by the id alone. What is found may have been written
by another one of them: it is then read as an object of the class that is asked for, whose properties are set
where the JSON has them and have their defaults elsewhere. The JSON of an object is represented by the object.
-/

namespace FaasNet.EventMesh

namespace StandardEntityTypes

/-- The type of VPNs. -/
def vpn : String := "VPN"

/-- The type of sessions. -/
def clientSession : String := "CLIENT_SESSION"

/-- The type of bridges. -/
def bridgeServer : String := "BRIDGE_SERVER"

/-- The type of exchanges. -/
def messageExchange : String := "MESSAGE_EXCHANGE"

/-- The type of clients. -/
def client : String := "CLIENT"

end StandardEntityTypes

namespace Runtime

open FaasNet.Lib

/-! ## The objects -/

/-- The ticks of a `DateTime`. -/
abbrev DateTime := Int

/-- A client of a VPN. -/
structure Client where
  id : Option String := none
  clientId : Option String := none
  urn : Option String := none
  vpn : Option String := none
  createDateTime : DateTime := 0
  purposes : Option (List Int) := none
  deriving DecidableEq, Repr

/-- A null is written as nothing. -/
def Client.buildId (vpn clientId : Option String) : String := vpn.getD "" ++ "_" ++ clientId.getD ""

/-- A session is open until it is finished. -/
inductive ClientSessionState where
  | ACTIVE
  | FINISH
  deriving DecidableEq, Repr

/-- A session of a client. -/
structure ClientSession where
  id : Option String := none
  clientId : Option String := none
  vpn : Option String := none
  pid : Int := 0
  purposeCode : Int := 0
  createDateTime : DateTime := 0
  expirationDateTime : Option DateTime := none
  state : ClientSessionState := .ACTIVE
  deriving DecidableEq, Repr

/-- The queues that are subscribed to a filter. -/
structure MessageExchange where
  topicFilter : Option String := none
  queueNames : List String := []
  deriving DecidableEq, Repr

/-- A VPN. -/
structure Vpn where
  name : Option String := none
  description : Option String := none
  createDateTime : DateTime := 0
  updateDateTime : DateTime := 0
  deriving DecidableEq, Repr

/-- A bridge to a VPN of another server. -/
structure BridgeServer where
  sourceVpn : Option String := none
  targetUrn : Option String := none
  targetPort : Int := 0
  targetVpn : Option String := none
  targetClientId : Option String := none
  deriving DecidableEq, Repr

/-! ## Records -/

/-- The `Value` of a record: the JSON of an object, or a text that the node does not make. -/
inductive EntityValue where
  | client (client : Client)
  | clientSession (session : ClientSession)
  | messageExchange (exchange : MessageExchange)
  | vpn (vpn : Vpn)
  | bridgeServer (server : BridgeServer)
  | peer (termId : String)
  | text (text : String)
  deriving DecidableEq, Repr

/-- `NodeState`, whose `EntityId` may be null. -/
structure Entity where
  entityType : String
  entityId : Option String
  entityVersion : Int
  value : EntityValue
  deriving DecidableEq, Repr

/-- `JsonSerializer.Deserialize` on the texts: it throws, or the result may be null. -/
structure JsonReader where
  client : String → Option (Option Client)
  clientSession : String → Option (Option ClientSession)
  messageExchange : String → Option (Option MessageExchange)
  vpn : String → Option (Option Vpn)

namespace EntityValue

section
variable (json : JsonReader)

/-- `Deserialize<Client>`. -/
def readClient : EntityValue → Option (Option Client)
  | .client c => some (some c)
  | .clientSession s =>
    some (some { id := s.id, clientId := s.clientId, vpn := s.vpn, createDateTime := s.createDateTime })
  | .vpn v => some (some { createDateTime := v.createDateTime })
  | .text t => json.client t
  | _ => some (some {})

/-- `Deserialize<ClientSession>`. -/
def readClientSession : EntityValue → Option (Option ClientSession)
  | .clientSession s => some (some s)
  | .client c =>
    some (some { id := c.id, clientId := c.clientId, vpn := c.vpn, createDateTime := c.createDateTime })
  | .vpn v => some (some { createDateTime := v.createDateTime })
  | .text t => json.clientSession t
  | _ => some (some {})

/-- `Deserialize<MessageExchange>`. -/
def readMessageExchange : EntityValue → Option (Option MessageExchange)
  | .messageExchange e => some (some e)
  | .text t => json.messageExchange t
  | _ => some (some {})

/-- `Deserialize<Vpn>`. -/
def readVpn : EntityValue → Option (Option Vpn)
  | .vpn v => some (some v)
  | .client c => some (some { createDateTime := c.createDateTime })
  | .clientSession s => some (some { createDateTime := s.createDateTime })
  | .text t => json.vpn t
  | _ => some (some {})

end

end EntityValue

/-! ## Stores of records -/

/-- What the typed stores call of `INodeStateStore`. -/
class IEntityStore (S : Type*) where
  add : Entity → S → S
  getLastEntityId : Option String → S → Option Entity

open IEntityStore (getLastEntityId)

/-- A record with a higher version than the last one under its id becomes the last one under it, and changes
nothing under other ids. -/
class LawfulEntityStore (S : Type*) [IEntityStore S] : Prop where
  last_add : ∀ {entity : Entity} {id : String} {store : S}, entity.entityId = some id →
    (∀ last ∈ getLastEntityId (some id) store, last.entityVersion < entity.entityVersion) →
    getLastEntityId (some id) (IEntityStore.add entity store) = some entity
  last_add_other : ∀ {entity : Entity} {id : String} (store : S), entity.entityId ≠ some id →
    getLastEntityId (some id) (IEntityStore.add entity store) = getLastEntityId (some id) store

/-- The bag of an `InMemoryNodeStateStore`. -/
structure InMemoryEntities where
  nodeStates : List Entity
  deriving DecidableEq, Repr

instance : IEntityStore InMemoryEntities where
  add entity store := ⟨store.nodeStates ++ [entity]⟩
  getLastEntityId id store := (descending Entity.entityVersion store.nodeStates).find? (·.entityId = id)

/-- An entity that is added is the newest with its identifier. -/
theorem InMemoryEntities.getLastEntityId_add (entity : Entity) (id : Option String) (store : InMemoryEntities) :
    getLastEntityId id (IEntityStore.add entity store) =
      if entity.entityId = id then
        some ((getLastEntityId id store).elim entity fun last =>
          if last.entityVersion < entity.entityVersion then entity else last)
      else getLastEntityId id store := by
  have found := find?_descending_concat Entity.entityVersion (fun e => e.entityId = id) store.nodeStates entity
  simp only [decide_eq_true_eq] at found
  exact found

instance : LawfulEntityStore InMemoryEntities where
  last_add := by
    intro entity id store named above
    rw [InMemoryEntities.getLastEntityId_add, if_pos named]
    cases found : getLastEntityId (some id) store with
    | none => rfl
    | some last => rw [Option.elim_some, if_pos (above last found)]
  last_add_other := by
    intro entity id store other
    rw [InMemoryEntities.getLastEntityId_add, if_neg other]

/-- The database `Ids` of a `RockDBNodeStateStore`, the only one that `GetLastEntityId` reads. A null is no key. -/
structure RockDBEntities where
  ids : AList fun _ : String => Entity

instance : IEntityStore RockDBEntities where
  add entity store := entity.entityId.elim store fun id => ⟨store.ids.insert id entity⟩
  getLastEntityId id store := id.bind store.ids.lookup

instance : LawfulEntityStore RockDBEntities where
  last_add := by
    intro entity id store named _
    simp [IEntityStore.add, getLastEntityId, named]
  last_add_other := by
    intro entity id store other
    cases given : entity.entityId with
    | none => simp [IEntityStore.add, given]
    | some id' =>
      have different : id ≠ id' := fun same => other (by rw [given, same])
      simp [IEntityStore.add, getLastEntityId, given, AList.lookup_insert_ne different]

/-! ## The typed stores -/

section
variable {S : Type*} [IEntityStore S]

/-- The version of a record that follows the last one. -/
def versionAfter (last : Option Entity) : Int := last.elim 0 fun last => nextVersion last.entityVersion

/-- `Add` of a typed store: the record of `ToNodeState`, with the version after the last one under its id. -/
def addEntity (entityType : String) (entityId : Option String) (value : EntityValue) (store : S) : S :=
  IEntityStore.add ⟨entityType, entityId, versionAfter (getLastEntityId entityId store), value⟩ store

/-- `Get` of a typed store: null, or what the last record under the id is read as. -/
def getEntity {T : Type} (read : EntityValue → Option (Option T)) (entityId : Option String) (store : S) :
    Option (Option T) :=
  (getLastEntityId entityId store).elim (some none) fun nodeState => read nodeState.value

/-- A client is added under its VPN and its identifier. -/
def ClientStore.add (client : Client) (store : S) : S :=
  addEntity StandardEntityTypes.client (some (Client.buildId client.vpn client.clientId)) (.client client) store

/-- The client of a VPN with an identifier. -/
def ClientStore.get (json : JsonReader) (vpn clientId : Option String) (store : S) : Option (Option Client) :=
  getEntity (EntityValue.readClient json) (some (Client.buildId vpn clientId)) store

/-- A session is added under its identifier. -/
def ClientSessionStore.add (session : ClientSession) (store : S) : S :=
  addEntity StandardEntityTypes.clientSession session.id (.clientSession session) store

/-- The session with an identifier. -/
def ClientSessionStore.get (json : JsonReader) (sessionId : Option String) (store : S) :
    Option (Option ClientSession) :=
  getEntity (EntityValue.readClientSession json) sessionId store

/-- An exchange is added under its filter. -/
def MessageExchangeStore.add (messageExchange : MessageExchange) (store : S) : S :=
  addEntity StandardEntityTypes.messageExchange messageExchange.topicFilter (.messageExchange messageExchange) store

/-- The exchange of a filter. -/
def MessageExchangeStore.get (json : JsonReader) (topicFilter : Option String) (store : S) :
    Option (Option MessageExchange) :=
  getEntity (EntityValue.readMessageExchange json) topicFilter store

end

/-! ## Calls -/

/-- Which typed store a call is made through. -/
inductive TypedStore where
  | clientStore
  | clientSessionStore
  | messageExchangeStore
  deriving DecidableEq, Repr

namespace TypedStore

/-- What a store keeps. -/
abbrev Value : TypedStore → Type
  | clientStore => Client
  | clientSessionStore => ClientSession
  | messageExchangeStore => MessageExchange

/-- The id an object is kept under. -/
def entityId : (k : TypedStore) → k.Value → Option String
  | clientStore, client => some (Client.buildId client.vpn client.clientId)
  | clientSessionStore, session => session.id
  | messageExchangeStore, exchange => exchange.topicFilter

/-- The type under which a store keeps its values. -/
def entityType : TypedStore → String
  | clientStore => StandardEntityTypes.client
  | clientSessionStore => StandardEntityTypes.clientSession
  | messageExchangeStore => StandardEntityTypes.messageExchange

/-- A value as it is written. -/
def write : (k : TypedStore) → k.Value → EntityValue
  | clientStore => .client
  | clientSessionStore => .clientSession
  | messageExchangeStore => .messageExchange

/-- A value as it is read. -/
def read (json : JsonReader) : (k : TypedStore) → EntityValue → Option (Option k.Value)
  | clientStore => EntityValue.readClient json
  | clientSessionStore => EntityValue.readClientSession json
  | messageExchangeStore => EntityValue.readMessageExchange json

section
variable {S : Type*} [IEntityStore S]

/-- `Add`, for each store. -/
def add : (k : TypedStore) → k.Value → S → S
  | clientStore => ClientStore.add
  | clientSessionStore => ClientSessionStore.add
  | messageExchangeStore => MessageExchangeStore.add

/-- `Get`, by the id under which the store looks. -/
def get (json : JsonReader) (k : TypedStore) (id : String) (store : S) : Option (Option k.Value) :=
  getEntity (k.read json) (some id) store

theorem add_eq (k : TypedStore) (value : k.Value) (store : S) :
    k.add value store = addEntity k.entityType (k.entityId value) (k.write value) store := by
  cases k <;> rfl

end

/-- What a store has written it reads back. -/
theorem read_write (json : JsonReader) (k : TypedStore) (value : k.Value) :
    k.read json (k.write value) = some (some value) := by
  cases k <;> rfl

/-- What another store has written is read as some object. -/
theorem read_write_ne_null (json : JsonReader) (k other : TypedStore) (value : other.Value) :
    k.read json (other.write value) ≠ some none := by
  cases k <;> cases other <;> simp [read, write, EntityValue.readClient, EntityValue.readClientSession,
    EntityValue.readMessageExchange]

/-- Another object of the same id. -/
def vary : (k : TypedStore) → k.Value → k.Value
  | clientStore, client => { client with urn := some (client.urn.elim "" (· ++ "_")) }
  | clientSessionStore, session => { session with pid := session.pid + 1 }
  | messageExchangeStore, exchange => { exchange with queueNames := "" :: exchange.queueNames }

theorem entityId_vary (k : TypedStore) (value : k.Value) : k.entityId (k.vary value) = k.entityId value := by
  cases k <;> rfl

theorem vary_ne (k : TypedStore) (value : k.Value) : k.vary value ≠ value := by
  cases k with
  | clientStore =>
    intro same
    have urn : some (value.urn.elim "" (· ++ "_")) = value.urn := congrArg Client.urn same
    cases given : value.urn with
    | none => simp [given] at urn
    | some text =>
      rw [given] at urn
      have length := congrArg String.length (Option.some.inj urn)
      simp at length
  | clientSessionStore =>
    intro same
    have pid : value.pid + 1 = value.pid := congrArg ClientSession.pid same
    omega
  | messageExchangeStore =>
    intro same
    have length := congrArg (fun exchange => (MessageExchange.queueNames exchange).length) same
    simp [vary] at length

end TypedStore

/-- An `Add` through one of the stores, of an object with an id. -/
structure StoreCall where
  store : TypedStore
  value : store.Value
  id : String
  named : store.entityId value = some id

namespace StoreCall

/-- Through which store and under which id it writes. -/
def place (call : StoreCall) : TypedStore × String := (call.store, call.id)

/-- The same call with another object. -/
def varied (call : StoreCall) : StoreCall :=
  ⟨call.store, call.store.vary call.value, call.id, (call.store.entityId_vary call.value).trans call.named⟩

/-- What it writes, if it is made through this store. -/
def valueOf (call : StoreCall) (k : TypedStore) : Option k.Value :=
  if same : call.store = k then some (same ▸ call.value) else none

theorem valueOf_own (call : StoreCall) : call.valueOf call.store = some call.value := dif_pos rfl

theorem valueOf_varied (call : StoreCall) (k : TypedStore) : call.varied.valueOf k = (call.valueOf k).map k.vary := by
  obtain ⟨store, value, id, named⟩ := call
  unfold valueOf varied
  dsimp only
  split
  next same =>
    subst same
    rfl
  next => rfl

end StoreCall

section
variable {S : Type*} [IEntityStore S]

/-- The store after a sequence of calls. -/
def afterCalls (store : S) (calls : List StoreCall) : S :=
  calls.foldl (fun store call => call.store.add call.value store) store

/-- The last call under an id, through whatever store. -/
def lastCall (id : String) (calls : List StoreCall) : Option StoreCall := lastWith (fun call => call.id = id) calls

/-- The last value written through a store under an id. -/
def lastWritten (k : TypedStore) (id : String) (calls : List StoreCall) : Option k.Value :=
  (lastWith (fun call => call.place = (k, id)) calls).bind (·.valueOf k)

/-- `Get` returns the last value written through the same store, or null, whatever the calls write. -/
def Undisturbed (json : JsonReader) (store : S) (k : TypedStore) (id : String) (places : List (TypedStore × String)) :
    Prop :=
  ∀ calls : List StoreCall, calls.map StoreCall.place = places →
    k.get json id (afterCalls store calls) = some (lastWritten k id calls)

end

section
variable {k : TypedStore} {id : String}

/-- How often an id is written under. -/
def callCount (id : String) (calls : List StoreCall) : Nat := calls.countP fun call => call.id = id

/-- Where there is no call, nothing is written. -/
theorem lastWritten_of_lastCall_none {calls : List StoreCall} (none : lastCall id calls = none) :
    lastWritten k id calls = .none := by
  have noneOf : lastWith (fun call => call.place = (k, id)) calls = .none := by
    rw [lastWith_eq_none]
    intro call inside same
    have other := lastWith_eq_none.mp none call inside
    simp_all [StoreCall.place]
  rw [lastWritten, noneOf, Option.bind_none]

/-- The last call under an id is through the same store if the places are the same. -/
theorem store_of_lastCall {calls calls' : List StoreCall} (same : calls'.map StoreCall.place = calls.map StoreCall.place)
    {call' : StoreCall} (last' : lastCall id calls' = some call') :
    ∃ call, lastCall id calls = some call ∧ call.store = call'.store := by
  have placed (calls : List StoreCall) : (lastCall id calls).map StoreCall.place =
      lastWith (fun place : TypedStore × String => place.2 = id) (calls.map StoreCall.place) := by
    rw [lastWith_map]
    rfl
  have places : (lastCall id calls).map StoreCall.place = some call'.place := by
    rw [placed, ← same, ← placed, last', Option.map_some]
  obtain ⟨call, last, place⟩ := Option.map_eq_some_iff.mp places
  exact ⟨call, last, congrArg Prod.fst place⟩

theorem callCount_congr {calls calls' : List StoreCall} (same : calls'.map StoreCall.place = calls.map StoreCall.place) :
    callCount id calls' = callCount id calls := by
  have placed (calls : List StoreCall) : callCount id calls =
      (calls.map StoreCall.place).countP fun place => place.2 = id := by
    rw [List.countP_map]
    rfl
  rw [placed, same, placed]

/-- The calls that write through a store under an id, with other objects. -/
def variedAt (k : TypedStore) (id : String) (call : StoreCall) : StoreCall :=
  if call.place = (k, id) then call.varied else call

theorem place_variedAt (call : StoreCall) : (variedAt k id call).place = call.place := by
  unfold variedAt
  split <;> rfl

/-- The value that is written last is varied. -/
theorem lastWritten_variedAt (calls : List StoreCall) :
    lastWritten k id (calls.map (variedAt k id)) = (lastWritten k id calls).map k.vary := by
  have asked : (fun call => decide (StoreCall.place call = (k, id))) ∘ variedAt k id =
      fun call => decide (StoreCall.place call = (k, id)) := by
    funext call
    simp only [Function.comp, place_variedAt]
  rw [lastWritten, lastWith_map, asked, lastWritten]
  cases last : lastWith (fun call => decide (StoreCall.place call = (k, id))) calls with
  | none => rfl
  | some call =>
    have place : call.place = (k, id) := by
      simpa using holds_of_lastWith (p := fun call : StoreCall => decide (call.place = (k, id))) last
    rw [Option.map_some, Option.bind_some, Option.bind_some, variedAt, if_pos place, StoreCall.valueOf_varied]

/-- A last call of another store is not varied. -/
theorem lastCall_variedAt {calls : List StoreCall} {last : StoreCall} (found : lastCall id calls = some last)
    (other : last.store ≠ k) : lastCall id (calls.map (variedAt k id)) = some last := by
  have asked : (fun call => decide (StoreCall.id call = id)) ∘ variedAt k id = fun call => decide (StoreCall.id call = id) := by
    funext call
    have same : (variedAt k id call).id = call.id := congrArg Prod.snd (place_variedAt call)
    simp only [Function.comp, same]
  have elsewhere : variedAt k id last = last := if_neg fun same => other (congrArg Prod.fst same)
  rw [lastCall, lastWith_map, asked]
  exact (congrArg (Option.map (variedAt k id)) found).trans (congrArg some elsewhere)

end

/-! ## What the stores find -/

section
variable {S : Type*} [IEntityStore S] {json : JsonReader} {store : S} {k : TypedStore} {id : String}

theorem afterCalls_concat (calls : List StoreCall) (call : StoreCall) :
    afterCalls store (calls ++ [call]) =
      addEntity call.store.entityType (some call.id) (call.store.write call.value) (afterCalls store calls) := by
  rw [afterCalls, List.foldl_concat, TypedStore.add_eq, call.named]
  rfl

variable [LawfulEntityStore S]

/-- The last record under an id is the one of the last call under it, as long as the versions, of the type
`int`, go up. -/
theorem getLastEntityId_afterCalls (unused : getLastEntityId (some id) store = none) {calls : List StoreCall}
    (few : callCount id calls ≤ 0x80000000) :
    getLastEntityId (some id) (afterCalls store calls) = (lastCall id calls).map fun call =>
      ⟨call.store.entityType, some id, callCount id calls - 1, call.store.write call.value⟩ := by
  induction calls using List.reverseRecOn with
  | nil => exact unused
  | append_singleton calls call ih =>
    rw [afterCalls_concat, lastCall, lastWith_concat]
    by_cases own : call.id = id
    · have count : callCount id (calls ++ [call]) = callCount id calls + 1 := by simp [callCount, own]
      have before := ih (by omega)
      have version : versionAfter (getLastEntityId (some id) (afterCalls store calls)) = callCount id calls := by
        rw [before]
        cases last : lastCall id calls with
        | none =>
          have none : callCount id calls = 0 := by
            rw [callCount, List.countP_eq_zero]
            simpa [lastCall, lastWith_eq_none] using last
          simp [versionAfter, none]
        | some previous =>
          have some : 0 < callCount id calls := by
            have own : decide (previous.id = id) = true :=
              holds_of_lastWith (p := fun call : StoreCall => decide (call.id = id)) last
            rw [callCount, List.countP_pos_iff]
            exact ⟨previous, mem_of_lastWith last, own⟩
          simp only [Option.map_some, versionAfter, Option.elim_some]
          rw [nextVersion_eq (by omega) (by omega)]
          omega
      rw [addEntity, own, version, count, if_pos (by simp)]
      refine (LawfulEntityStore.last_add rfl ?_).trans ?_
      · intro last found
        rw [before] at found
        obtain ⟨previous, -, rfl⟩ := Option.map_eq_some_iff.mp found
        dsimp only
        omega
      · simp
    · have count : callCount id (calls ++ [call]) = callCount id calls := by simp [callCount, own]
      rw [addEntity, LawfulEntityStore.last_add_other _ (by simpa using own), count, if_neg (by simpa using own)]
      exact ih (by omega)

/-- What is got is what the last call with the identifier wrote, as far as the type can read it. -/
theorem get_afterCalls (unused : getLastEntityId (some id) store = none) {calls : List StoreCall}
    (few : callCount id calls ≤ 0x80000000) :
    k.get json id (afterCalls store calls) =
      (lastCall id calls).elim (some none) fun call => k.read json (call.store.write call.value) := by
  rw [TypedStore.get, getEntity, getLastEntityId_afterCalls unused few]
  cases lastCall id calls <;> rfl

/-! ## When the stores do not disturb each other -/

/-- If each last call is of the store itself, nothing is disturbed. -/
theorem undisturbed_of_lastCall (unused : getLastEntityId (some id) store = none) {calls : List StoreCall}
    (few : callCount id calls ≤ 0x80000000) (own : ∀ last ∈ lastCall id calls, last.store = k) :
    Undisturbed json store k id (calls.map StoreCall.place) := by
  intro calls' same
  rw [get_afterCalls unused (by rwa [callCount_congr same])]
  cases last' : lastCall id calls' with
  | none => rw [lastWritten_of_lastCall_none last', Option.elim_none]
  | some call' =>
    obtain ⟨call, last, through⟩ := store_of_lastCall same last'
    have through' : call'.store = k := through.symm.trans (own call last)
    have id' : call'.id = id := by
      simpa using holds_of_lastWith (p := fun call : StoreCall => decide (call.id = id)) last'
    have lastOf : lastWith (fun call => call.place = (k, id)) calls' = some call' := by
      refine lastWith_narrow last' (fun other asked => ?_) ?_
      · simp_all [StoreCall.place]
      · simp [StoreCall.place, through', id']
    subst through'
    rw [lastWritten, lastOf, Option.bind_some, StoreCall.valueOf_own, Option.elim_some, TypedStore.read_write]

/-- If nothing is disturbed, each last call is of the store itself. -/
theorem store_of_undisturbed (unused : getLastEntityId (some id) store = none) {calls : List StoreCall}
    (few : callCount id calls ≤ 0x80000000)
    (undisturbed : Undisturbed json store k id (calls.map StoreCall.place)) {last : StoreCall}
    (found : lastCall id calls = some last) : last.store = k := by
  by_contra other
  have same : (calls.map (variedAt k id)).map StoreCall.place = calls.map StoreCall.place := by
    rw [List.map_map]
    exact List.map_congr_left fun call _ => place_variedAt call
  have found' := lastCall_variedAt found other
  -- what the other store wrote last is read, whatever was written through this one
  have here := undisturbed calls rfl
  have there := undisturbed (calls.map (variedAt k id)) same
  rw [get_afterCalls unused few, found, Option.elim_some] at here
  rw [get_afterCalls unused (by rwa [callCount_congr same]), found', Option.elim_some, here, lastWritten_variedAt] at there
  cases written : lastWritten k id calls with
  | none => exact TypedStore.read_write_ne_null json k last.store last.value (by rw [here, written])
  | some value =>
    rw [written, Option.map_some] at there
    exact TypedStore.vary_ne k value (Option.some.inj (Option.some.inj there)).symm

/-- **A store finds what was last written through it exactly under the ids whose last call was through it.** Over
both kinds of stores, for all calls and ids that are not written under more often than versions can count. -/
theorem undisturbed_iff (json : JsonReader) (k : TypedStore) (unused : getLastEntityId (some id) store = none)
    (calls : List StoreCall) (few : callCount id calls ≤ 0x80000000) :
    Undisturbed json store k id (calls.map StoreCall.place) ↔ ∀ last ∈ lastCall id calls, last.store = k :=
  ⟨fun undisturbed _ found => store_of_undisturbed unused few undisturbed found, undisturbed_of_lastCall unused few⟩

end

/-- No text is JSON. -/
def noTexts : JsonReader := ⟨fun _ => none, fun _ => none, fun _ => none, fun _ => none⟩

/-- A session, and an exchange whose filter is no id of a session. -/
def separateCalls : List StoreCall :=
  [⟨.clientSessionStore, { id := some "session", purposeCode := 1 }, "session", rfl⟩,
    ⟨.messageExchangeStore, { topicFilter := some "topic", queueNames := ["group"] }, "topic", rfl⟩]

/-- The session is found. -/
theorem undisturbed_separateCalls :
    Undisturbed noTexts (⟨[]⟩ : InMemoryEntities) .clientSessionStore "session" (separateCalls.map StoreCall.place) :=
  (undisturbed_iff noTexts .clientSessionStore rfl separateCalls (by decide)).mpr (by
    rintro last found
    obtain rfl := Option.some.inj found
    rfl)

/-- A session, and then an exchange whose filter is its id. -/
def sessionAsFilter : List StoreCall :=
  [⟨.clientSessionStore, { id := some "session", purposeCode := 1 }, "session", rfl⟩,
    ⟨.messageExchangeStore, { topicFilter := some "session", queueNames := ["group"] }, "session", rfl⟩]

/-- The session is no longer found: the exchange is read in its place. -/
theorem disturbed_sessionAsFilter :
    TypedStore.clientSessionStore.get noTexts "session" (afterCalls (⟨[]⟩ : InMemoryEntities) sessionAsFilter) ≠
      some (lastWritten .clientSessionStore "session" sessionAsFilter) := by
  decide

end Runtime

end FaasNet.EventMesh
