import FaasNet.EventMesh.Sessions

/-!
# The client registry

A client is kept under the text `{vpn}_{clientId}`, and nothing but this text is compared when it is looked for. Two
pairs with an underscore in one of their parts may have the same text; then the client that was added last is found
under both.
-/

namespace FaasNet.EventMesh.Runtime

open FaasNet.Lib
open IEntityStore (getLastEntityId)

/-- The client was added with exactly this pair. -/
abbrev Client.HasPair (client : Client) (vpn clientId : Option String) : Prop :=
  client.vpn = vpn ∧ client.clientId = clientId

/-- The text a client is kept under. -/
def Client.key (client : Client) : String := Client.buildId client.vpn client.clientId

/-- The last client that was added with a pair. -/
def lastAdded (vpn clientId : Option String) (clients : List Client) : Option Client :=
  lastWith (fun client => client.HasPair vpn clientId) clients

/-- `ClientStore.Add` of a client as a call on the stores. -/
def StoreCall.ofClient (client : Client) : StoreCall := ⟨.clientStore, client, client.key, rfl⟩

section
variable {S : Type*} [IEntityStore S]

/-- The store after these clients were added. -/
def afterAdds (store : S) (clients : List Client) : S :=
  clients.foldl (fun store client => ClientStore.add client store) store

/-- The registry finds under a pair the last client that was added with it, or null. -/
def Registered (json : JsonReader) (store : S) (clients : List Client) (vpn clientId : Option String) : Prop :=
  ClientStore.get json vpn clientId (afterAdds store clients) = some (lastAdded vpn clientId clients)

variable {json : JsonReader} {store : S} {vpn clientId : Option String}

theorem afterAdds_eq (clients : List Client) : afterAdds store clients = afterCalls store (clients.map .ofClient) := by
  rw [afterAdds, afterCalls, List.foldl_map]
  rfl

/-- What is found is the client added last under the text. -/
theorem get_afterAdds [LawfulEntityStore S] (unused : getLastEntityId (some (Client.buildId vpn clientId)) store = none)
    {clients : List Client} (few : (clients.countP fun client => client.key = Client.buildId vpn clientId) ≤ 0x80000000) :
    ClientStore.get json vpn clientId (afterAdds store clients) =
      some (lastWith (fun client => client.key = Client.buildId vpn clientId) clients) := by
  have count : callCount (Client.buildId vpn clientId) (clients.map .ofClient) =
      clients.countP fun client => client.key = Client.buildId vpn clientId := by
    rw [callCount, List.countP_map]
    rfl
  have found : TypedStore.clientStore.get json (Client.buildId vpn clientId) (afterCalls store (clients.map .ofClient)) = _ :=
    get_afterCalls unused (by rwa [count])
  have last : lastCall (Client.buildId vpn clientId) (clients.map .ofClient) =
      (lastWith (fun client => client.key = Client.buildId vpn clientId) clients).map .ofClient := by
    rw [lastCall, lastWith_map]
    rfl
  rw [afterAdds_eq]
  refine found.trans ?_
  rw [last]
  cases lastWith (fun client => decide (client.key = Client.buildId vpn clientId)) clients <;> rfl

/-- **The registry is a map keyed by the pair** exactly where the last client added under its text has this pair. -/
theorem registered_iff [LawfulEntityStore S] (unused : getLastEntityId (some (Client.buildId vpn clientId)) store = none)
    (clients : List Client)
    (few : (clients.countP fun client => client.key = Client.buildId vpn clientId) ≤ 0x80000000) :
    Registered json store clients vpn clientId ↔
      ∀ last ∈ lastWith (fun client => client.key = Client.buildId vpn clientId) clients, last.HasPair vpn clientId := by
  rw [Registered, get_afterAdds unused few, Option.some_inj, lastAdded]
  refine (lastWith_eq_narrow_iff fun client asked => ?_).trans ?_
  · obtain ⟨rfl, rfl⟩ := of_decide_eq_true asked
    exact decide_eq_true rfl
  · simp only [decide_eq_true_eq]

end

/-! ## What the handlers make of it -/

section
variable {E : Type} {libraries : Libraries E} {broker : Broker} {store : InMemoryEntities} {clients : List Client}

/-- What is found in a registry that keeps the pair was added with it. -/
theorem Registered.of_found {json : JsonReader} {vpn clientId : Option String} {client : Client}
    (registered : Registered json store clients vpn clientId)
    (found : ClientStore.get json vpn clientId (afterAdds store clients) = some (some client)) :
    client ∈ clients ∧ client.HasPair vpn clientId := by
  have last : lastAdded vpn clientId clients = some client := Option.some.inj (registered.symm.trans found)
  have holds := holds_of_lastWith last
  exact ⟨mem_of_lastWith last, by simpa using holds⟩

/-- A client that is authenticated was added with the pair of the HELLO. -/
theorem authenticate_of_registered (added : broker.entities = afterAdds store clients) {userAgent : Client.UserAgent}
    (registered : Registered libraries.json store clients (some userAgent.vpn) (some userAgent.clientId)) {client : Client}
    (authenticated : broker.authenticate libraries userAgent = .ok client) :
    client ∈ clients ∧ client.HasPair (some userAgent.vpn) (some userAgent.clientId) := by
  obtain ⟨vpn, -, rest⟩ := bind_eq_ok.mp authenticated
  obtain ⟨⟨⟩, -, rest⟩ := bind_eq_ok.mp rest
  obtain ⟨found, got, rest⟩ := bind_eq_ok.mp rest
  obtain ⟨client', isFound, rest⟩ := bind_eq_ok.mp rest
  obtain ⟨purposes, -, rest⟩ := bind_eq_ok.mp rest
  obtain ⟨⟨⟩, -, same⟩ := bind_eq_ok.mp rest
  obtain rfl : client' = client := Except.ok.inj same
  have got := orInternalError_eq_ok.mp got
  rw [added] at got
  cases found with
  | none => cases isFound
  | some given =>
    obtain rfl : given = client' := Except.ok.inj isFound
    exact registered.of_found got

/-- A client is refused as a duplicate only if one was added with its pair. -/
theorem addClient_of_registered (added : broker.entities = afterAdds store clients) {env : RequestEnv} {seq : String}
    {vpn clientId : String} {purposes : List UserAgentPurpose}
    (registered : Registered libraries.json store clients (some vpn) (some clientId))
    (refused : (broker.addClient libraries env seq vpn clientId purposes).2 = .error ⟨"CLIENT_ALREADY_EXISTS"⟩) :
    ∃ client ∈ clients, client.HasPair (some vpn) (some clientId) := by
  have internal {T : Type} {result : Option T} {error : Errors} (thrown : orInternalError result = .error error) :
      error = ⟨"INTERNAL_ERROR"⟩ := by
    cases result with
    | none => exact (Except.error.inj thrown).symm
    | some value => cases thrown
  unfold Broker.addClient at refused
  split at refused
  next error unknown =>
    obtain rfl := internal unknown
    simp at refused
  next => simp at refused
  next =>
    split at refused
    next error unreadable =>
      obtain rfl := internal unreadable
      simp at refused
    next client found =>
      have got := orInternalError_eq_ok.mp found
      rw [added] at got
      exact ⟨client, registered.of_found got⟩
    next => cases refused

end

/-- Two clients whose pairs have different texts. -/
def apartClients : List Client := [{ vpn := some "a", clientId := some "c" }, { vpn := some "b", clientId := some "c" }]

theorem registered_apartClients : Registered noTexts (⟨[]⟩ : InMemoryEntities) apartClients (some "a") (some "c") :=
  (registered_iff rfl apartClients (by decide)).mpr (by decide)

/-- The client `b_c` of the VPN `a`. -/
def underscoredClients : List Client := [{ vpn := some "a", clientId := some "b_c", purposes := some [1] }]

/-- It is found under the VPN `a_b`, which has no client. -/
theorem not_registered_underscoredClients :
    ¬ Registered noTexts (⟨[]⟩ : InMemoryEntities) underscoredClients (some "a_b") (some "c") := by
  unfold Registered
  decide

end FaasNet.EventMesh.Runtime
