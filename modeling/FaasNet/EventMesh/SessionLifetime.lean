import FaasNet.EventMesh.Sessions

/-!
# The lifetime of a session

A client asks for the lifetime of its session in a HELLO. On the wire a time span of no ticks means that there is none,
so that an expiration of zero arrives as no expiration and the default applies. The node checks the policy on what
arrives, and `ClientSession.Create` adds the lifetime to the clock, also for a session that never ends: where the sum is
no `DateTime`, the request fails.
-/

namespace FaasNet.EventMesh.Runtime

open FaasNet.Lib FaasNet.RaftConsensus
open FaasNet.EventMesh.Client (Package UserAgent)

/-! ## The policy -/

namespace EventMeshNodeOptions

/-- The lifetimes a client may ask for. -/
def Accepts (options : EventMeshNodeOptions) (userAgent : UserAgent) : Prop :=
  match userAgent.purpose with
  | .PUB => userAgent.isSessionInfinite = false ∧
      ∀ expiration ∈ userAgent.expiration, expiration ≤ options.maxPubSessionExpirationTimeSpan
  | .SUB => ∀ expiration ∈ userAgent.expiration, options.minSubSessionExpirationTimeSpan ≤ expiration

def defaultExpiration (options : EventMeshNodeOptions) : UserAgentPurpose → Int
  | .PUB => options.defaultPubSessionExpirationTimeSpan
  | .SUB => options.defaultSubSessionExpirationTimeSpan

/-- What the client asks for, or the default. -/
def lifetime (options : EventMeshNodeOptions) (userAgent : UserAgent) : Int :=
  userAgent.expiration.getD (options.defaultExpiration userAgent.purpose)

end EventMeshNodeOptions

/-- The ticks of some `DateTime`. -/
abbrev IsDateTime (ticks : Int) : Prop := 0 ≤ ticks ∧ ticks ≤ maxTicks

section
variable {E : Type} {libraries : Libraries E} {broker : Broker} {env : RequestEnv} {seq : String} {userAgent : UserAgent}

theorem computeSessionExpiration_eq_ok {expirationTimeSpan : Int} :
    Broker.computeSessionExpiration libraries userAgent = .ok expirationTimeSpan ↔
      libraries.options.Accepts userAgent ∧ expirationTimeSpan = libraries.options.lifetime userAgent := by
  unfold Broker.computeSessionExpiration EventMeshNodeOptions.Accepts EventMeshNodeOptions.lifetime
    EventMeshNodeOptions.defaultExpiration
  cases userAgent.purpose with
  | PUB =>
    by_cases infinite : userAgent.isSessionInfinite
    · simp [infinite]
    · cases userAgent.expiration with
      | none => simp [infinite, eq_comm]
      | some expiration =>
        by_cases tooLong : libraries.options.maxPubSessionExpirationTimeSpan < expiration
        · simp [infinite, tooLong]
        · simp [infinite, tooLong, not_lt.mp tooLong, eq_comm]
  | SUB =>
    cases userAgent.expiration with
    | none => simp [eq_comm]
    | some expiration =>
      by_cases tooShort : expiration < libraries.options.minSubSessionExpirationTimeSpan
      · simp [tooShort]
      · simp [tooShort, not_lt.mp tooShort, eq_comm]

/-! ## A HELLO that is handled -/

/-- The expiration `Create` gives a session. -/
def expirationAt (options : EventMeshNodeOptions) (utcNow : DateTime) (userAgent : UserAgent) : Option DateTime :=
  if userAgent.isSessionInfinite then none else some (utcNow + options.lifetime userAgent)

/-- The lifetime is accepted, and the expiration is a `DateTime`. -/
def Granted (options : EventMeshNodeOptions) (utcNow : DateTime) (userAgent : UserAgent) : Prop :=
  options.Accepts userAgent ∧ IsDateTime (utcNow + options.lifetime userAgent)

theorem create_of_isDateTime (pid : Int) (purpose : UserAgentPurpose) (clientId vpn : Option String) (infinite : Bool)
    {expirationTimeSpan : Int} (inside : IsDateTime (env.utcNow 0 + expirationTimeSpan)) :
    ∃ session, ClientSession.create env pid purpose clientId vpn expirationTimeSpan infinite = some session ∧
      session.expirationDateTime = if infinite then none else some (env.utcNow 0 + expirationTimeSpan) :=
  ⟨_, if_pos inside, rfl⟩

/-- The session of a client that is authenticated. -/
theorem createSession_cases (env : RequestEnv) {client : Client}
    (authenticated : broker.authenticate libraries userAgent = .ok client) :
    (Granted libraries.options (env.utcNow 0) userAgent ∧ ∃ session, broker.createSession libraries env userAgent = .ok session ∧
        session.expirationDateTime = expirationAt libraries.options (env.utcNow 0) userAgent) ∨
      (¬ Granted libraries.options (env.utcNow 0) userAgent ∧
        ∃ error, broker.createSession libraries env userAgent = .error error) := by
  unfold Broker.createSession
  rw [authenticated]
  cases computed : Broker.computeSessionExpiration libraries userAgent with
  | error error =>
    refine .inr ⟨fun granted => ?_, error, rfl⟩
    have returns := computeSessionExpiration_eq_ok.mpr ⟨granted.1, rfl⟩
    cases computed.symm.trans returns
  | ok expirationTimeSpan =>
    obtain ⟨accepts, rfl⟩ := computeSessionExpiration_eq_ok.mp computed
    by_cases inside : IsDateTime (env.utcNow 0 + libraries.options.lifetime userAgent)
    · obtain ⟨session, created, expiration⟩ := create_of_isDateTime userAgent.pid userAgent.purpose client.clientId
        (some userAgent.vpn) userAgent.isSessionInfinite inside
      exact .inl ⟨⟨accepts, inside⟩, session, orInternalError_eq_ok.mpr created, expiration⟩
    · exact .inr ⟨fun granted => inside granted.2, ⟨"INTERNAL_ERROR"⟩, congrArg orInternalError (if_neg inside)⟩

/-- What the node makes of the HELLO of a client that is authenticated. -/
theorem handlePackage_hello (env : RequestEnv) (seq : String) {client : Client}
    (authenticated : broker.authenticate libraries userAgent = .ok client) :
    (Granted libraries.options (env.utcNow 0) userAgent ∧
        Success (broker.handlePackage libraries env seq (.hello userAgent)).2 ∧
        ∃ session, session.expirationDateTime = expirationAt libraries.options (env.utcNow 0) userAgent ∧
          (broker.handlePackage libraries env seq (.hello userAgent)).1.entities =
            ClientSessionStore.add session broker.entities) ∨
      (¬ Granted libraries.options (env.utcNow 0) userAgent ∧
        ¬ Success (broker.handlePackage libraries env seq (.hello userAgent)).2) := by
  rcases createSession_cases env authenticated with ⟨granted, session, created, expiration⟩ |
    ⟨refused, error, thrown⟩
  · have handled : broker.runHandler libraries env seq (.hello userAgent) =
        ({ broker with entities := ClientSessionStore.add session broker.entities },
          .ok (.sendResult (Client.PackageResponseBuilder.hello seq (env.newGuid 0)))) := by
      simp only [Broker.runHandler, Broker.hello, created]
    rw [Broker.handlePackage, handled]
    exact .inl ⟨granted, ⟨_, rfl, rfl⟩, session, expiration, rfl⟩
  · have handled : broker.runHandler libraries env seq (.hello userAgent) = (broker, .error error) := by
      simp only [Broker.runHandler, Broker.hello, thrown]
    simp only [Broker.handlePackage, handled]
    exact .inr ⟨refused, not_success_error .HELLO_REQUEST error⟩

/-- What was stored tells the session. -/
theorem expirationDateTime_of_add {entities : InMemoryEntities} {session other : ClientSession}
    (same : ClientSessionStore.add session entities = ClientSessionStore.add other entities) :
    session.expirationDateTime = other.expirationDateTime := by
  have records := List.append_cancel_left (congrArg InMemoryEntities.nodeStates same)
  have values := congrArg Entity.value (List.cons.inj records).1
  exact congrArg ClientSession.expirationDateTime (EntityValue.clientSession.inj values)

/-- The expiration of the session that the policy gives. -/
def policyExpiration (options : EventMeshNodeOptions) (utcNow : DateTime) (userAgent : UserAgent) : Option DateTime :=
  if userAgent.purpose = .SUB ∧ userAgent.isSessionInfinite then none else some (utcNow + options.lifetime userAgent)

/-- The policy for the lifetime of sessions, on a request as the client meant it. The time of creation is the one that
`Create` reads first. -/
structure LifetimePolicy (options : EventMeshNodeOptions) (utcNow : DateTime) (userAgent : UserAgent) (before : Broker)
    (handled : Broker × Option (Package E)) : Prop where
  accepted : Success handled.2 ↔ options.Accepts userAgent
  expiration : Success handled.2 → ∃ session, handled.1.entities = ClientSessionStore.add session before.entities ∧
    session.expirationDateTime = policyExpiration options utcNow userAgent

end

/-! ## A HELLO that is sent -/

section
variable {D V : Type} (lib : CloudEventLibrary D V) {libraries : Libraries (CloudEvent D V)} {broker : Broker}
  {env : RequestEnv} {seq : String} {userAgent : UserAgent}

/-- A HELLO that is serialised, read by the node and handled. -/
def Broker.receiveHello (libraries : Libraries (CloudEvent D V)) (broker : Broker) (env : RequestEnv) (seq : String)
    (userAgent : UserAgent) : Option (Broker × Option (Package (CloudEvent D V))) :=
  (Client.Package.deserialize lib ((Client.PackageRequestBuilder.hello seq userAgent).serialize lib)).bind fun read =>
    match read.1.body with
    | .helloRequest userAgent => some (broker.handlePackage libraries env read.1.header.seq (.hello userAgent))
    | _ => none

theorem receiveHello_eq
    (representable : (Client.PackageRequestBuilder.hello seq userAgent : Package (CloudEvent D V)).IsRepresentable) :
    broker.receiveHello lib libraries env seq userAgent =
      some (broker.handlePackage libraries env seq (.hello userAgent.received)) := by
  have integers := representable.body.ints
  have ticks := representable.body.ticks
  have strings := representable.body.strings
  simp only [Client.PackageRequestBuilder.hello, Client.Body.ints, Client.Body.ticks, Client.Body.strings,
    List.forall_mem_cons] at integers ticks strings
  have read : Reads (Client.Body.extract lib .SUCCESS .HELLO_REQUEST)
      ((Client.Body.helloRequest userAgent : Client.Body (CloudEvent D V)).serialize lib)
      (.helloRequest userAgent.received) := (Client.UserAgent.reads strings integers.1 integers.2.1 ticks).map
  have whole := Client.Package.deserialize_serialize lib representable
  simp only [Client.PackageRequestBuilder.hello, Client.Header.success, read.eq_some, Option.map_some] at whole
  rw [Broker.receiveHello]
  simp only [Client.PackageRequestBuilder.hello, Client.Header.success, whole, Option.bind_some]

/-- When the node's policy is the one for the request as the client meant it. An expiration of zero arrives as none, so
that the default applies instead; any other one that is accepted has to lead to a `DateTime`. -/
def SurvivesWire (options : EventMeshNodeOptions) (utcNow : DateTime) (userAgent : UserAgent) : Prop :=
  let default := options.defaultExpiration userAgent.purpose
  (userAgent.expiration ≠ some 0 → options.Accepts userAgent → IsDateTime (utcNow + options.lifetime userAgent)) ∧
    (userAgent.expiration = some 0 → ¬ (userAgent.purpose = .PUB ∧ userAgent.isSessionInfinite = true) →
      (options.Accepts userAgent → IsDateTime (utcNow + default) ∧ (userAgent.isSessionInfinite = true ∨ default = 0)) ∧
        (¬ options.Accepts userAgent → ¬ IsDateTime (utcNow + default)))

/-- The policy, by what the node does with the user agent it has read. -/
theorem lifetimePolicy_handlePackage {client : Client} (authenticated : broker.authenticate libraries userAgent = .ok client) :
    LifetimePolicy libraries.options (env.utcNow 0) userAgent broker
        (broker.handlePackage libraries env seq (.hello userAgent.received)) ↔
      (Granted libraries.options (env.utcNow 0) userAgent.received ↔ libraries.options.Accepts userAgent) ∧
        (Granted libraries.options (env.utcNow 0) userAgent.received →
          expirationAt libraries.options (env.utcNow 0) userAgent.received =
            policyExpiration libraries.options (env.utcNow 0) userAgent) := by
  -- the expiration is not asked for when the client is authenticated
  have authenticated : broker.authenticate libraries userAgent.received = .ok client := authenticated
  rcases handlePackage_hello env seq authenticated with ⟨granted, success, session, expiration, stored⟩ |
    ⟨refused, failed⟩
  · constructor
    · rintro ⟨accepted, policy⟩
      obtain ⟨other, stored', expiration'⟩ := policy success
      refine ⟨iff_of_true granted (accepted.mp success), fun _ => ?_⟩
      rw [← expiration, expirationDateTime_of_add (stored.symm.trans stored')]
      exact expiration'
    · rintro ⟨accepts, same⟩
      exact ⟨iff_of_true success (accepts.mp granted), fun _ => ⟨session, stored, expiration.trans (same granted)⟩⟩
  · constructor
    · rintro ⟨accepted, -⟩
      exact ⟨iff_of_false refused fun accepts => failed (accepted.mpr accepts), fun granted => absurd granted refused⟩
    · rintro ⟨accepts, -⟩
      exact ⟨iff_of_false failed fun accepted => refused (accepts.mpr accepted), fun success => absurd success failed⟩

theorem policyExpiration_of_accepts {options : EventMeshNodeOptions} {utcNow : DateTime} (accepts : options.Accepts userAgent) :
    expirationAt options utcNow userAgent = policyExpiration options utcNow userAgent := by
  unfold EventMeshNodeOptions.Accepts at accepts
  unfold expirationAt policyExpiration
  cases purpose : userAgent.purpose with
  | PUB =>
    rw [purpose] at accepts
    simp [accepts.1]
  | SUB => simp

/-- Without an expiration only publishers that want no end are refused. -/
theorem accepts_of_none {options : EventMeshNodeOptions} (absent : userAgent.expiration = none) :
    options.Accepts userAgent ↔ ¬ (userAgent.purpose = .PUB ∧ userAgent.isSessionInfinite = true) := by
  unfold EventMeshNodeOptions.Accepts
  rw [absent]
  cases userAgent.purpose <;> simp

/-- **The lifetime policy** holds of the request as the client meant it exactly under this condition. -/
theorem lifetimePolicy_iff {client : Client}
    (representable : (Client.PackageRequestBuilder.hello seq userAgent : Package (CloudEvent D V)).IsRepresentable)
    (authenticated : broker.authenticate libraries userAgent = .ok client) :
    (∃ handled, broker.receiveHello lib libraries env seq userAgent = some handled ∧
        LifetimePolicy libraries.options (env.utcNow 0) userAgent broker handled) ↔
      SurvivesWire libraries.options (env.utcNow 0) userAgent := by
  rw [receiveHello_eq lib representable]
  simp only [Option.some_inj, exists_eq_left', lifetimePolicy_handlePackage authenticated]
  unfold SurvivesWire
  by_cases zero : userAgent.expiration = some 0
  · have absent : userAgent.received.expiration = none := if_pos zero
    have lifetime : libraries.options.lifetime userAgent.received = libraries.options.defaultExpiration userAgent.purpose := by
      rw [EventMeshNodeOptions.lifetime, absent]
      rfl
    have asked : libraries.options.lifetime userAgent = 0 := by rw [EventMeshNodeOptions.lifetime, zero, Option.getD_some]
    have granted : Granted libraries.options (env.utcNow 0) userAgent.received ↔
        ¬ (userAgent.purpose = .PUB ∧ userAgent.isSessionInfinite = true) ∧
          IsDateTime (env.utcNow 0 + libraries.options.defaultExpiration userAgent.purpose) := by
      rw [Granted, accepts_of_none absent, lifetime]
      rfl
    by_cases endless : userAgent.purpose = .PUB ∧ userAgent.isSessionInfinite = true
    · have refused : ¬ libraries.options.Accepts userAgent := by
        intro accepts
        simp only [EventMeshNodeOptions.Accepts, endless.1, endless.2] at accepts
        cases accepts.1
      have notGranted : ¬ Granted libraries.options (env.utcNow 0) userAgent.received := fun given => (granted.mp given).1 endless
      exact iff_of_true ⟨iff_of_false notGranted refused, fun given => absurd given notGranted⟩
        ⟨fun notZero => absurd zero notZero, fun _ limited => absurd endless limited⟩
    · have granted := granted.trans (and_iff_right endless)
      have same : expirationAt libraries.options (env.utcNow 0) userAgent.received =
          policyExpiration libraries.options (env.utcNow 0) userAgent ↔
            userAgent.isSessionInfinite = true ∨ libraries.options.defaultExpiration userAgent.purpose = 0 := by
        have flag : userAgent.received.isSessionInfinite = userAgent.isSessionInfinite := rfl
        rw [expirationAt, policyExpiration, lifetime, asked, flag]
        by_cases infinite : userAgent.isSessionInfinite = true
        · have subscriber : userAgent.purpose = .SUB := by
            cases purpose : userAgent.purpose with
            | PUB => exact absurd ⟨purpose, infinite⟩ endless
            | SUB => rfl
          simp [infinite, subscriber]
        · simp [infinite]
      constructor
      · rintro ⟨accepted, expiration⟩
        refine ⟨fun notZero => absurd zero notZero, fun _ _ => ⟨fun accepts => ?_, fun refuses inside => ?_⟩⟩
        · exact ⟨granted.mp (accepted.mpr accepts), same.mp (expiration (accepted.mpr accepts))⟩
        · exact refuses (accepted.mp (granted.mpr inside))
      · rintro ⟨-, atZero⟩
        obtain ⟨ifAccepts, otherwise⟩ := atZero zero endless
        have accepted (given : Granted libraries.options (env.utcNow 0) userAgent.received) :
            libraries.options.Accepts userAgent := by_contra fun refuses => otherwise refuses (granted.mp given)
        exact ⟨⟨accepted, fun accepts => granted.mpr (ifAccepts accepts).1⟩,
          fun given => same.mpr (ifAccepts (accepted given)).2⟩
  · have same : userAgent.received = userAgent := Client.UserAgent.received_eq_iff.mpr zero
    rw [same]
    constructor
    · rintro ⟨granted, -⟩
      exact ⟨fun _ accepts => (granted.mpr accepts).2, fun isZero => absurd isZero zero⟩
    · rintro ⟨inside, -⟩
      exact ⟨⟨fun granted => granted.1, fun accepts => ⟨accepts, inside zero accepts⟩⟩,
        fun granted => policyExpiration_of_accepts granted.1⟩

end

/-- A subscriber that asks for this lifetime. -/
def subscriber (expiration : Int) : UserAgent where
  vpn := "vpn"
  clientId := "client"
  urn := ""
  port := 0
  password := ""
  version := ""
  purpose := .SUB
  pid := 0
  isSessionInfinite := false
  expiration := some expiration

/-- A node that knows the subscriber. -/
def subscriberBroker : Broker where
  entities := ClientStore.add { id := some "id", clientId := some "client", vpn := some "vpn", purposes := some [1] }
    (VpnStore.add "entity" { name := some "vpn" } ⟨[]⟩)
  peers := []

def defaultLibraries : Libraries (CloudEvent (List UInt8) String) where
  options := {}
  json := noTexts
  isMatch := fun topicFilter topic => some (topicFilter = topic)
  setType := fun _ _ => none
  serializeBase64 := fun _ => none
  deserializeBase64 := fun _ => none

def secondEnv : RequestEnv := { utcNow := fun _ => 10000000, newGuid := fun _ => "session" }

theorem representable_subscriber {expiration : Int} (isLong : IsLong expiration) :
    (Client.PackageRequestBuilder.hello "0" (subscriber expiration) :
      Package (CloudEvent (List UInt8) String)).IsRepresentable :=
  ⟨(by decide : IsInt 0), (by decide : ∀ str ∈ ["success", "", "0"], IsText str),
    (by decide : ∀ str ∈ ["vpn", "client", "", "", ""], IsText str), nofun, (by decide : ∀ i ∈ [0, 0], IsInt i),
    fun _ same => Option.some.inj same ▸ isLong⟩

/-- A session of an hour. -/
theorem lifetimePolicy_hour :
    ∃ handled, subscriberBroker.receiveHello .onTexts defaultLibraries secondEnv "0" (subscriber 36000000000) =
        some handled ∧
      LifetimePolicy defaultLibraries.options (secondEnv.utcNow 0) (subscriber 36000000000) subscriberBroker handled :=
  (lifetimePolicy_iff .onTexts (representable_subscriber (by decide)) rfl).mpr ⟨fun _ _ => by decide, nofun⟩

/-- A subscription that is to end at once lasts an hour. -/
theorem not_lifetimePolicy_zero :
    ¬ ∃ handled, subscriberBroker.receiveHello .onTexts defaultLibraries secondEnv "0" (subscriber 0) = some handled ∧
      LifetimePolicy defaultLibraries.options (secondEnv.utcNow 0) (subscriber 0) subscriberBroker handled := by
  rintro ⟨handled, received, policy⟩
  rw [receiveHello_eq .onTexts (representable_subscriber (by decide)), Option.some_inj] at received
  have tooShort : ¬ defaultLibraries.options.Accepts (subscriber 0) := fun accepts => absurd (accepts 0 rfl) (by decide)
  have granted : Granted defaultLibraries.options (secondEnv.utcNow 0) (subscriber 0).received := ⟨nofun, by decide⟩
  have authenticated : ∃ client, subscriberBroker.authenticate defaultLibraries (subscriber 0).received = .ok client :=
    ⟨_, rfl⟩
  obtain ⟨client, authenticated⟩ := authenticated
  rcases handlePackage_hello secondEnv "0" authenticated with ⟨-, success, -⟩ | ⟨refused, -⟩
  · exact tooShort (policy.accepted.mp (received ▸ success))
  · exact refused granted

end FaasNet.EventMesh.Runtime
