import FaasNet.EventMesh.PackageCodec

/-!
# The operations of `EventMeshClient`

Every operation sends one request, reads the datagram it gets as a package, calls `EnsureSuccessStatus` and takes what
it returns from the class it expects. The check compares the sequence number of the request with itself and looks at no
command, so any success is taken for the answer: most operations then complete, and those that read a property of the
expected class throw a `NullReferenceException` where the package is of another class. The loops of the two subscriptions
catch what is thrown in them, and just end.
-/

namespace FaasNet.EventMesh.Client

open FaasNet.Lib FaasNet.RaftConsensus

/-- The operations of the client and of its sessions that wait for an answer. The last two are one pass of the loops
that a subscription starts. -/
inductive Operation (E : Type) where
  | ping
  | getAllVpns
  | createPubSession (vpn clientId : String) (expirationTime : Option Int) (isInfinite : Bool)
  | createSubSession (vpn clientId : String) (expirationTime : Option Int)
  | addVpn (vpn : String)
  | addClient (vpn clientId : String) (purposes : List UserAgentPurpose)
  | getAllBridges
  | addBridge (vpn url : String) (port : Int) (targetVpn targetClientId : String)
  | disconnect (clientId sessionId : String)
  | getAllPlugins
  | enablePlugin (pluginName : String)
  | disablePlugin (pluginName : String)
  | getPluginConfiguration (pluginName : String)
  | updatePluginConfiguration (pluginName propertyKey propertyValue : String)
  | publish (sessionId topicName : String) (cloudEvent : E)
  | persistedSubscribe (sessionId topicFilter groupId : String)
  | handlePersistedSubscribe (sessionId groupId : String)
  | handleDirectSubscribe (topicName : String) (offsetEvt : Int)

/-- What an operation gives its caller, or its callback. The answer to `HELLO` may be null. -/
inductive Result (E : Type) where
  | done
  | session (sessionId : Option String)
  | vpns (vpns : List String)
  | servers (servers : List BridgeServerResponse)
  | plugins (plugins : List PluginResponse)
  | records (records : List PluginConfigurationRecordResponse)
  | message (cloudEvt : Option E)
  deriving DecidableEq

/-- How an operation ends. -/
inductive Outcome (E : Type) where
  | completes (result : Result E)
  | runtimeClientResponseException (status : HeaderStatus) (error : Option Errors)
  | otherException
  -- Its loop has caught an exception, and the task of the loop ends as if there had been none.
  | ends
  deriving DecidableEq

/-- `try` with an empty `catch`. -/
def Outcome.caught {E : Type} : Outcome E → Outcome E
  | completes result => completes result
  | runtimeClientResponseException _ _ | otherException | ends => ends

/-- `EnsureSuccessStatus`; `some` is what its exception says. -/
def ensureSuccessStatus {E : Type} (packageRequest packageResponse : Package E) : Option (HeaderStatus × Option Errors) :=
  if packageResponse.header.status.equals .SUCCESS = false then
    some (packageResponse.header.status, packageResponse.header.error)
  -- the request is compared with itself
  else if packageRequest.header.seq ≠ packageRequest.header.seq then some (.FAIL, some ⟨"INVALID_SEQ"⟩)
  else none

namespace Operation

section
variable {E : Type}

/-- The user agent of `CreateSession`, whose other strings are null. -/
def userAgent (vpn clientId : String) (purpose : UserAgentPurpose) (expirationTime : Option Int) (isInfinite : Bool) :
    UserAgent where
  vpn := vpn
  clientId := clientId
  urn := ""
  port := 0
  password := ""
  version := ""
  purpose := purpose
  pid := 0
  isSessionInfinite := isInfinite
  expiration := expirationTime

/-- The package an operation sends; `seq` is the random number of the builder. -/
def request (seq : String) : Operation E → Package E
  | ping => PackageRequestBuilder.heartBeat seq
  | getAllVpns => PackageRequestBuilder.getAllVpns seq
  | createPubSession vpn clientId expirationTime isInfinite =>
    PackageRequestBuilder.hello seq (userAgent vpn clientId .PUB expirationTime isInfinite)
  | createSubSession vpn clientId expirationTime =>
    PackageRequestBuilder.hello seq (userAgent vpn clientId .SUB expirationTime false)
  | addVpn vpn => PackageRequestBuilder.addVPN seq vpn
  | addClient vpn clientId purposes => PackageRequestBuilder.addClient seq vpn clientId purposes
  | getAllBridges => PackageRequestBuilder.getAllBridge seq
  | addBridge vpn url port targetVpn targetClientId =>
    PackageRequestBuilder.addBridge seq vpn url port targetVpn targetClientId
  | disconnect clientId sessionId => PackageRequestBuilder.disconnect seq clientId sessionId
  | getAllPlugins => PackageRequestBuilder.getAllPlugins seq
  | enablePlugin pluginName => PackageRequestBuilder.enablePlugin seq pluginName
  | disablePlugin pluginName => PackageRequestBuilder.disablePlugin seq pluginName
  | getPluginConfiguration pluginName => PackageRequestBuilder.getPluginConfiguration seq pluginName
  | updatePluginConfiguration pluginName propertyKey propertyValue =>
    PackageRequestBuilder.updatePluginConfiguration seq pluginName propertyKey propertyValue
  | publish sessionId topicName cloudEvent => PackageRequestBuilder.publishMessage seq sessionId topicName cloudEvent
  | persistedSubscribe sessionId topicFilter groupId =>
    PackageRequestBuilder.subscribe seq groupId [topicFilter] sessionId
  | handlePersistedSubscribe sessionId groupId => PackageRequestBuilder.readNextMessage seq sessionId groupId
  | handleDirectSubscribe topicName offsetEvt => PackageRequestBuilder.readTopicMessage seq topicName offsetEvt

/-- The operation is one pass of a loop, `HandlePersistedSubscribe` or `HandleDirectSubscribe`. -/
def isLoop : Operation E → Bool
  | handlePersistedSubscribe _ _ | handleDirectSubscribe _ _ => true
  | ping | getAllVpns | createPubSession _ _ _ _ | createSubSession _ _ _ | addVpn _ | addClient _ _ _ | getAllBridges
  | addBridge _ _ _ _ _ | disconnect _ _ | getAllPlugins | enablePlugin _ | disablePlugin _ | getPluginConfiguration _
  | updatePluginConfiguration _ _ _ | publish _ _ _ | persistedSubscribe _ _ _ => false

/-- What an operation takes from the package once the check has passed; `none` is the `NullReferenceException` of a
property read after `as` has given null. -/
def result : Operation E → Body E → Option (Result E)
  | createPubSession _ _ _ _, .helloResponse sessionId | createSubSession _ _ _, .helloResponse sessionId =>
    some (.session (some sessionId))
  | createPubSession _ _ _ _, _ | createSubSession _ _ _, _ => some (.session none)
  | getAllVpns, .getAllVpnResponse vpns => some (.vpns vpns)
  | getAllBridges, .getAllBridgeResponse servers => some (.servers servers)
  | getAllPlugins, .getAllPluginsResponse plugins => some (.plugins plugins)
  | getPluginConfiguration _, .getPluginConfigurationResponse records => some (.records records)
  | handlePersistedSubscribe _ _, .readNextMessageResponse cloudEvt _ => some (.message cloudEvt)
  | handleDirectSubscribe _ _, .readMessageTopicResponse _ _ value => some (.message value)
  | getAllVpns, _ | getAllBridges, _ | getAllPlugins, _ | getPluginConfiguration _, _ | handlePersistedSubscribe _ _, _
  | handleDirectSubscribe _ _, _ => none
  | ping, _ | addVpn _, _ | addClient _ _ _, _ | addBridge _ _ _ _ _, _ | disconnect _ _, _ | enablePlugin _, _
  | disablePlugin _, _ | updatePluginConfiguration _ _ _, _ | publish _ _ _, _ | persistedSubscribe _ _ _, _ =>
    some .done

end

section
variable {D V : Type} (lib : CloudEventLibrary D V)

/-- What an operation does with the datagram it receives, without the loop that it may be in. -/
def read (operation : Operation (CloudEvent D V)) (seq : String) (datagram : List UInt8) :
    Outcome (CloudEvent D V) :=
  match Package.deserialize lib datagram with
  | none => .otherException
  | some (packageResult, _) =>
    match ensureSuccessStatus (operation.request seq) packageResult with
    | some (status, error) => .runtimeClientResponseException status error
    | none =>
      match operation.result packageResult.body with
      | none => .otherException
      | some result => .completes result

/-- An operation from the datagram it receives on. -/
def receive (operation : Operation (CloudEvent D V)) (seq : String) (datagram : List UInt8) :
    Outcome (CloudEvent D V) :=
  if operation.isLoop then (operation.read lib seq datagram).caught else operation.read lib seq datagram

/-- The command of an answer. The mapping lacks the two commands of the loops. -/
def responseCommand : Commands → Option Commands
  | .READ_NEXT_MESSAGE_REQUEST => some .READ_NEXT_MESSAGE_RESPONSE
  | .READ_TOPIC_MESSAGE_REQUEST => some .READ_TOPIC_MESSAGE_RESPONSE
  | command => Constants.mappingRequestToResponse.lookup command

/-- The package is of the request with this number and command. -/
def Answers {E : Type} (packageRequest packageResponse : Package E) : Prop :=
  packageResponse.header.seq = packageRequest.header.seq ∧
    responseCommand packageRequest.header.command = some packageResponse.header.command

/-- The datagram is the successful answer of the operation. -/
def IsOwnAnswer (operation : Operation (CloudEvent D V)) (seq : String) (datagram : List UInt8) : Prop :=
  ∃ packageResult rest, Package.deserialize lib datagram = some (packageResult, rest) ∧
    packageResult.header.status.equals .SUCCESS = true ∧ Answers (operation.request seq) packageResult

/-- The operation completes on its own answer only, and fails otherwise with the exception that is meant for it. -/
structure AcceptsOwnAnswer (operation : Operation (CloudEvent D V)) (seq : String) (datagram : List UInt8) : Prop where
  own : ∀ result, operation.receive lib seq datagram = .completes result → operation.IsOwnAnswer lib seq datagram
  refuses : ¬ operation.IsOwnAnswer lib seq datagram →
    ∃ status error, operation.receive lib seq datagram = .runtimeClientResponseException status error

variable {lib} {operation : Operation (CloudEvent D V)} {seq : String} {datagram : List UInt8}

/-- A loop throws nothing. -/
theorem receive_of_isLoop (loop : operation.isLoop = true) (status : HeaderStatus) (error : Option Errors) :
    operation.receive lib seq datagram ≠ .runtimeClientResponseException status error := by
  rw [receive, if_pos loop]
  cases operation.read lib seq datagram <;> simp [Outcome.caught]

theorem receive_of_not_isLoop (plain : ¬ operation.isLoop = true) :
    operation.receive lib seq datagram = operation.read lib seq datagram := if_neg plain

/-- What completes in a loop completes without it. -/
theorem receive_eq_completes_iff {result : Result (CloudEvent D V)} :
    operation.receive lib seq datagram = .completes result ↔ operation.read lib seq datagram = .completes result := by
  rw [receive]
  split_ifs
  · cases operation.read lib seq datagram <;> simp [Outcome.caught]
  · rfl

/-- What is refused is refused outside of a loop. -/
theorem receive_eq_refused_iff {status : HeaderStatus} {error : Option Errors} :
    operation.receive lib seq datagram = .runtimeClientResponseException status error ↔
      ¬ operation.isLoop = true ∧ operation.read lib seq datagram = .runtimeClientResponseException status error := by
  by_cases loop : operation.isLoop = true
  · simp only [loop, not_true_eq_false, false_and, iff_false]
    exact receive_of_isLoop loop status error
  · rw [receive_of_not_isLoop loop]
    exact (and_iff_right loop).symm

theorem read_none (unreadable : Package.deserialize lib datagram = none) :
    operation.read lib seq datagram = .otherException := by
  rw [read, unreadable]

section
variable {packageResult : Package (CloudEvent D V)} {rest : List UInt8}

theorem read_failed (made : Package.deserialize lib datagram = some (packageResult, rest))
    (failed : packageResult.header.status.equals .SUCCESS = false) :
    operation.read lib seq datagram =
      .runtimeClientResponseException packageResult.header.status packageResult.header.error := by
  simp only [read, made, ensureSuccessStatus, failed, if_true]

/-- A success is never refused. -/
theorem read_success (made : Package.deserialize lib datagram = some (packageResult, rest))
    (success : packageResult.header.status.equals .SUCCESS = true) (status : HeaderStatus) (error : Option Errors) :
    operation.read lib seq datagram ≠ .runtimeClientResponseException status error := by
  simp only [read, made, ensureSuccessStatus, success, Bool.true_eq_false, if_false, ne_eq, not_true_eq_false]
  cases operation.result packageResult.body <;> simp

theorem isOwnAnswer_iff (read : Package.deserialize lib datagram = some (packageResult, rest)) :
    operation.IsOwnAnswer lib seq datagram ↔
      packageResult.header.status.equals .SUCCESS = true ∧ Answers (operation.request seq) packageResult := by
  rw [IsOwnAnswer, read]
  constructor
  · rintro ⟨_, _, ⟨⟩, own⟩
    exact own
  · exact fun own => ⟨packageResult, rest, rfl, own⟩

end

/-- The class of the answer is the one that is expected. -/
theorem result_of_extract (operation : Operation (CloudEvent D V)) (seq : String) (status : HeaderStatus)
    {command : Commands} (answers : responseCommand (operation.request seq).header.command = some command) :
    Yields (Body.extract lib status command) fun body => ∃ result, operation.result body = some result := by
  cases operation with
  | getAllVpns =>
    obtain rfl := Option.some.inj answers
    exact Yields.bind fun vpns => Yields.pure ⟨_, rfl⟩
  | getAllBridges =>
    obtain rfl := Option.some.inj answers
    exact Yields.bind fun servers => Yields.pure ⟨_, rfl⟩
  | getAllPlugins =>
    obtain rfl := Option.some.inj answers
    exact Yields.bind fun plugins => Yields.pure ⟨_, rfl⟩
  | getPluginConfiguration pluginName =>
    obtain rfl := Option.some.inj answers
    by_cases success : status.equals .SUCCESS = true
    · simp only [Body.extract, success, if_true]
      exact Yields.bind fun records => Yields.pure ⟨_, rfl⟩
    · simp only [Body.extract, success]
      exact Yields.pure ⟨_, rfl⟩
  | handlePersistedSubscribe sessionId groupId =>
    obtain rfl := Option.some.inj answers
    refine Yields.bind fun containsMessage => ?_
    split
    · exact Yields.bind fun cloudEvt => Yields.bind fun evtOffset => Yields.pure ⟨_, rfl⟩
    · exact Yields.pure ⟨_, rfl⟩
  | handleDirectSubscribe topicName offsetEvt =>
    obtain rfl := Option.some.inj answers
    refine Yields.bind fun topic => Yields.bind fun evtOffset => Yields.bind fun containsMessage => ?_
    split
    · exact Yields.bind fun value => Yields.pure ⟨_, rfl⟩
    · exact Yields.pure ⟨_, rfl⟩
  | createPubSession | createSubSession =>
    intro _ _ body _
    cases body <;> exact ⟨_, rfl⟩
  | ping | addVpn | addClient | addBridge | disconnect | enablePlugin | disablePlugin | updatePluginConfiguration | publish |
    persistedSubscribe => exact fun _ _ _ _ => ⟨_, rfl⟩

/-- An operation completes on its own answer. -/
theorem IsOwnAnswer.completes (own : operation.IsOwnAnswer lib seq datagram) :
    ∃ result, operation.receive lib seq datagram = .completes result := by
  obtain ⟨packageResult, rest, made, success, -, answers⟩ := own
  have whole := made
  obtain ⟨magicCode, afterMagic, -, made⟩ := Reader.bind_eq_some.mp made
  obtain ⟨version, afterVersion, -, made⟩ := Reader.bind_eq_some.mp made
  obtain ⟨header, afterHeader, -, made⟩ := Reader.bind_eq_some.mp made
  obtain ⟨body, afterBody, extracted, made⟩ := Reader.bind_eq_some.mp made
  obtain ⟨rfl, -⟩ := Reader.pure_eq_some.mp made
  obtain ⟨result, taken⟩ := result_of_extract operation seq header.status answers afterHeader afterBody body extracted
  refine ⟨result, receive_eq_completes_iff.mpr ?_⟩
  simp only [read, whole, ensureSuccessStatus, success, Bool.true_eq_false, if_false, ne_eq, not_true_eq_false, taken]

/-- **An operation accepts its own answer only** exactly for the datagrams that can be read, are no success of another
request, and are a success where a loop reads them. -/
theorem acceptsOwnAnswer_iff : operation.AcceptsOwnAnswer lib seq datagram ↔
    ∃ packageResult rest, Package.deserialize lib datagram = some (packageResult, rest) ∧
      ¬ (packageResult.header.status.equals .SUCCESS = true ∧ ¬ Answers (operation.request seq) packageResult) ∧
      (operation.isLoop = true → packageResult.header.status.equals .SUCCESS = true) := by
  cases made : Package.deserialize lib datagram with
  | none =>
    simp only [reduceCtorEq, false_and, exists_false, iff_false]
    intro accepts
    have foreign : ¬ operation.IsOwnAnswer lib seq datagram := by
      rintro ⟨packageResult, rest, here, -⟩
      exact Option.some_ne_none _ (here.symm.trans made)
    obtain ⟨status, error, refused⟩ := accepts.refuses foreign
    have unread := (receive_eq_refused_iff.mp refused).2
    rw [read_none made] at unread
    cases unread
  | some package =>
    obtain ⟨packageResult, rest⟩ := package
    have own : operation.IsOwnAnswer lib seq datagram ↔ _ := isOwnAnswer_iff made
    constructor
    · intro accepts
      refine ⟨packageResult, rest, rfl, ?_, ?_⟩
      · rintro ⟨success, foreign⟩
        obtain ⟨status, error, refused⟩ := accepts.refuses fun answer => foreign (own.mp answer).2
        exact read_success made success status error (receive_eq_refused_iff.mp refused).2
      · intro loop
        by_contra failed
        obtain ⟨status, error, refused⟩ := accepts.refuses fun answer => failed (own.mp answer).1
        exact receive_of_isLoop loop status error refused
    · rintro ⟨_, _, ⟨⟩, ownSuccess, loops⟩
      by_cases success : packageResult.header.status.equals .SUCCESS = true
      · have answers := of_not_not fun foreign => ownSuccess ⟨success, foreign⟩
        exact ⟨fun _ _ => own.mpr ⟨success, answers⟩, fun foreign => absurd (own.mpr ⟨success, answers⟩) foreign⟩
      · have failed : operation.read lib seq datagram = _ := read_failed made (Bool.not_eq_true _ ▸ success)
        refine ⟨fun result completes => ?_, fun _ => ⟨_, _, receive_eq_refused_iff.mpr ⟨mt loops success, failed⟩⟩⟩
        cases failed.symm.trans (receive_eq_completes_iff.mp completes)

end

/-- The answer to a heartbeat with the sequence number 0. -/
def heartbeatAnswer : Package (CloudEvent (List UInt8) String) := PackageResponseBuilder.heartBeat "0"

/-- A heartbeat with the number 1 takes it for its own. -/
theorem not_acceptsOwnAnswer_ping :
    Operation.ping.receive .onTexts "1" (heartbeatAnswer.serialize .onTexts) = .completes .done ∧
      ¬ Operation.ping.AcceptsOwnAnswer .onTexts "1" (heartbeatAnswer.serialize .onTexts) := by
  have representable : heartbeatAnswer.IsRepresentable := ⟨by decide, by decide, Body.isRepresentable_package⟩
  have made : Package.deserialize .onTexts (heartbeatAnswer.serialize .onTexts) = some (heartbeatAnswer, []) :=
    (Package.deserialize_serialize_iff .onTexts representable).mpr rfl
  have completes : Operation.ping.receive .onTexts "1" (heartbeatAnswer.serialize .onTexts) = .completes .done := by
    rw [receive, if_neg (show ¬ (Operation.ping (E := CloudEvent (List UInt8) String)).isLoop = true from Bool.false_ne_true),
      read, made]
    rfl
  refine ⟨completes, fun accepts => ?_⟩
  obtain ⟨-, sameSeq, -⟩ := (isOwnAnswer_iff made).mp (accepts.own _ completes)
  exact absurd sameSeq (by decide)

end Operation

end FaasNet.EventMesh.Client
