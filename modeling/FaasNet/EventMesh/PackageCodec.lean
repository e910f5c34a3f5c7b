import FaasNet.EventMesh.Messages

/-!
# `Package.Serialize` and `Package.Deserialize`

The magic code and the version are written but not checked when they are read. What follows the header is
read by the class the command stands for, also when the status is not SUCCESS; so an error, which is only
a header, is read as a message whose fields the buffer no longer holds.
-/

namespace FaasNet.EventMesh.Client

open FaasNet.Lib FaasNet.RaftConsensus WriteBufferContext ReadBufferContext

/-! ## The header -/

namespace Commands

/-- A command is read from its number. -/
def deserialize : Reader UInt8 Commands := do
  let code ← nextInt
  Reader.require (init code)

theorem reads (command : Commands) : Reads deserialize (writeInteger command.code) command := by
  have code : Reads nextInt (writeInteger command.code) command.code :=
    reads_integer (by cases command <;> decide)
  have found : init command.code = some command := by cases command <;> rfl
  exact code.lookup found

theorem pays : Pays deserialize fun _ => 4 :=
  pays_int.bind fun _ => Pays.require fun _ _ => by omega

end Commands

namespace HeaderStatus

/-- A status is written. -/
def serialize (status : HeaderStatus) : List UInt8 := writeInteger status.code ++ writeString status.desc

/-- A status is read. -/
def deserialize : Reader UInt8 HeaderStatus := do
  let code ← nextInt
  let desc ← nextString
  pure ⟨code, desc⟩

theorem reads {status : HeaderStatus} (code : IsInt status.code) (desc : IsText status.desc) :
    Reads deserialize status.serialize status :=
  (reads_integer code).bind (reads_string desc).map

theorem pays : Pays deserialize fun status => status.desc.length := by
  refine pays_int.bind fun _ => pays_string.bind fun _ => Pays.pure ?_
  simp

end HeaderStatus

namespace Errors

/-- An error is written as its code. -/
def serialize (error : Errors) : List UInt8 := writeString error.code

/-- An error is read from its code. -/
def deserialize : Reader UInt8 Errors := do
  let code ← nextString
  pure ⟨code⟩

theorem reads {error : Errors} (code : IsText error.code) : Reads deserialize error.serialize error :=
  (reads_string code).map

theorem pays : Pays deserialize fun error => error.code.length := by
  refine pays_string.bind fun _ => Pays.pure ?_
  simp

end Errors

namespace Header

/-- A header is written. -/
def serialize (header : Header) : List UInt8 :=
  writeInteger header.command.code ++ header.status.serialize
    ++ (if header.status.equals .SUCCESS then [] else (header.error.map Errors.serialize).getD [])
    ++ writeString header.seq

/-- A header is read. -/
def deserialize : Reader UInt8 Header := do
  let cmd ← Commands.deserialize
  let status ← HeaderStatus.deserialize
  if success : status.equals .SUCCESS then do
    let seq ← nextString
    pure ⟨cmd, status, none, seq, by simp [success]⟩
  else do
    let error ← Errors.deserialize
    let seq ← nextString
    pure ⟨cmd, status, some error, seq, by simp [success]⟩

/-- The strings of a header. -/
def strings (header : Header) : List String :=
  [header.status.desc, (header.error.map Errors.code).getD "", header.seq]

theorem reads {header : Header} (code : IsInt header.status.code) (strings : ∀ str ∈ header.strings, IsText str) :
    Reads deserialize header.serialize header := by
  have desc : IsText header.status.desc := strings _ (by simp [Header.strings])
  have seq : IsText header.seq := strings _ (by simp [Header.strings])
  have error : IsText ((header.error.map Errors.code).getD "") := strings _ (by simp [Header.strings])
  obtain ⟨command, status, error?, seq?, failed⟩ := header
  simp only [serialize, List.append_assoc]
  refine command.reads.bind <| (HeaderStatus.reads code desc).bind ?_
  by_cases success : status.equals .SUCCESS
  · obtain rfl : error? = none := by simpa [success] using failed
    rw [if_pos success, dif_pos success]
    exact (reads_string seq).map
  · obtain ⟨value, rfl⟩ : ∃ value, error? = some value := by simpa [success, Option.isSome_iff_exists] using failed
    rw [if_neg success, dif_neg success]
    exact (Errors.reads error).bind (reads_string seq).map

theorem pays : Pays deserialize fun header => (header.strings.map String.length).sum := by
  refine Commands.pays.bind fun _ => HeaderStatus.pays.bind fun status => ?_
  split
  · refine pays_string.bind fun _ => Pays.pure ?_
    simp [strings]
    omega
  · refine Errors.pays.bind fun _ => pays_string.bind fun _ => Pays.pure ?_
    simp [strings]
    omega

end Header

/-! ## The elements of a message -/

namespace UserAgentPurpose

/-- The number of a purpose. -/
def code : UserAgentPurpose → Int
  | .SUB => 1
  | .PUB => 2

/-- A purpose is written as its number. -/
def serialize (purpose : UserAgentPurpose) : List UInt8 := writeInteger (code purpose)

/-- The purpose of a code; `Single` throws when there is none. -/
def deserialize : Reader UInt8 UserAgentPurpose := do
  let value ← nextInt
  Reader.require ([.SUB, .PUB].find? fun purpose => code purpose = value)

theorem reads (purpose : UserAgentPurpose) : Reads deserialize (serialize purpose) purpose := by
  have value : Reads nextInt (serialize purpose) (code purpose) := reads_integer (by cases purpose <;> decide)
  exact value.lookup (by cases purpose <;> rfl)

theorem pays : Pays deserialize fun _ => 4 :=
  pays_int.bind fun _ => Pays.require fun _ _ => by omega

end UserAgentPurpose

namespace UserAgent

/-- A user agent is written. -/
def serialize (userAgent : UserAgent) : List UInt8 :=
  writeString userAgent.vpn ++ writeString userAgent.clientId ++ writeString userAgent.urn
    ++ writeInteger userAgent.port ++ writeString userAgent.password ++ writeString userAgent.version
    ++ UserAgentPurpose.serialize userAgent.purpose ++ writeInteger userAgent.pid
    ++ writeBoolean userAgent.isSessionInfinite ++ writeTimeSpan userAgent.expiration

/-- A user agent is read. -/
def deserialize : Reader UInt8 UserAgent := do
  let vpn ← nextString
  let clientId ← nextString
  let urn ← nextString
  let port ← nextInt
  let password ← nextString
  let version ← nextString
  let purpose ← UserAgentPurpose.deserialize
  let pid ← nextInt
  let isSessionInfinite ← nextBoolean
  let expiration ← nextTimeSpan
  pure ⟨vpn, clientId, urn, port, password, version, purpose, pid, isSessionInfinite, expiration⟩

/-- The strings of a user agent. -/
def strings (userAgent : UserAgent) : List String :=
  [userAgent.vpn, userAgent.clientId, userAgent.urn, userAgent.password, userAgent.version]

end UserAgent

namespace BridgeServerResponse

/-- A bridge is written. -/
def serialize (server : BridgeServerResponse) : List UInt8 :=
  writeString server.sourceVpn ++ writeString server.targetUrn ++ writeInteger server.targetPort
    ++ writeString server.targetVpn ++ writeString server.targetClientId

/-- A bridge is read. -/
def deserialize : Reader UInt8 BridgeServerResponse := do
  let sourceVpn ← nextString
  let targetUrn ← nextString
  let targetPort ← nextInt
  let targetVpn ← nextString
  let targetClientId ← nextString
  pure ⟨sourceVpn, targetUrn, targetPort, targetVpn, targetClientId⟩

/-- The strings of a bridge. -/
def strings (server : BridgeServerResponse) : List String :=
  [server.sourceVpn, server.targetUrn, server.targetVpn, server.targetClientId]

end BridgeServerResponse

namespace PluginResponse

/-- A plugin is written. -/
def serialize (plugin : PluginResponse) : List UInt8 :=
  writeString plugin.name ++ writeString plugin.description ++ writeBoolean plugin.isActive

/-- A plugin is read. -/
def extract : Reader UInt8 PluginResponse := do
  let name ← nextString
  let description ← nextString
  let isActive ← nextBoolean
  pure ⟨name, description, isActive⟩

/-- The strings of a plugin. -/
def strings (plugin : PluginResponse) : List String := [plugin.name, plugin.description]

end PluginResponse

namespace PluginConfigurationRecordResponse

/-- A record of a configuration is written. -/
def serialize (record : PluginConfigurationRecordResponse) : List UInt8 :=
  writeString record.name ++ writeString record.description ++ writeString record.defaultValue
    ++ writeString record.configuredValue

/-- A record of a configuration is read. -/
def extract : Reader UInt8 PluginConfigurationRecordResponse := do
  let name ← nextString
  let description ← nextString
  let defaultValue ← nextString
  let configuredValue ← nextString
  pure ⟨name, description, defaultValue, configuredValue⟩

/-- The strings of a record. -/
def strings (record : PluginConfigurationRecordResponse) : List String :=
  [record.name, record.description, record.defaultValue, record.configuredValue]

end PluginConfigurationRecordResponse

/-! ## The package -/

section
variable {D V : Type} (lib : CloudEventLibrary D V)

namespace Body

/-- What a class writes after the header. -/
def serialize : Body (CloudEvent D V) → List UInt8
  | helloRequest userAgent => userAgent.serialize
  | subscriptionRequest sessionId groupId topicFilters =>
    writeString sessionId ++ writeString groupId ++ writeMany writeString topicFilters
  | addClientRequest vpn clientId purposes =>
    writeString vpn ++ writeString clientId ++ writeMany UserAgentPurpose.serialize purposes
  | subscriptionResult queueName => writeString queueName
  | disconnectRequest clientId sessionId => writeString clientId ++ writeString sessionId
  | helloResponse sessionId => writeString sessionId
  | publishMessageRequest sessionId topic cloudEvent =>
    writeString sessionId ++ writeString topic ++ lib.serialize cloudEvent
  | getAllVpnResponse vpns => writeStringArray vpns
  | addVpnRequest vpn => writeString vpn
  | readNextMessageRequest sessionId groupId => writeString sessionId ++ writeString groupId
  | readNextMessageResponse none _ => writeBoolean false
  | readNextMessageResponse (some cloudEvt) evtOffset =>
    writeBoolean true ++ lib.serialize cloudEvt ++ writeInteger evtOffset
  | readMessageTopicRequest topic evtOffset => writeString topic ++ writeInteger evtOffset
  | readMessageTopicResponse topic evtOffset none => writeString topic ++ writeInteger evtOffset ++ writeBoolean false
  | readMessageTopicResponse topic evtOffset (some value) =>
    writeString topic ++ writeInteger evtOffset ++ writeBoolean true ++ lib.serialize value
  | addBridgeRequest sourceVpn targetVpn targetUrn targetPort targetClientId =>
    writeString sourceVpn ++ writeString targetVpn ++ writeString targetUrn ++ writeInteger targetPort
      ++ writeString targetClientId
  | getAllBridgeResponse servers => writeMany BridgeServerResponse.serialize servers
  | getAllPluginsResponse plugins => writeMany PluginResponse.serialize plugins
  | enablePluginRequest pluginName => writeString pluginName
  | disablePluginRequest pluginName => writeString pluginName
  | getPluginConfigurationRequest name => writeString name
  | getPluginConfigurationResponse records => writeMany PluginConfigurationRecordResponse.serialize records
  | updatePluginConfigurationRequest name propertyName propertyValue =>
    writeString (name.getD "") ++ writeString (propertyName.getD "") ++ writeString (propertyValue.getD "")
  | package => []
  | addClientResponse => []
  | getAllVpnRequest => []
  | getAllPluginsRequest => []

/-- `Extract` of the class the command stands for. -/
def extract (status : HeaderStatus) : Commands → Reader UInt8 (Body (CloudEvent D V))
  | .HELLO_REQUEST => do
    let userAgent ← UserAgent.deserialize
    pure (helloRequest userAgent)
  | .SUBSCRIBE_REQUEST => do
    let sessionId ← nextString
    let groupId ← nextString
    let topicFilters ← nextMany nextString
    pure (subscriptionRequest sessionId groupId topicFilters)
  | .ADD_CLIENT_REQUEST => do
    let vpn ← nextString
    let clientId ← nextString
    let purposes ← nextMany UserAgentPurpose.deserialize
    pure (addClientRequest vpn clientId purposes)
  | .ADD_CLIENT_RESPONSE => pure addClientResponse
  | .SUBSCRIBE_RESPONSE => do
    let queueName ← nextString
    pure (subscriptionResult queueName)
  | .DISCONNECT_REQUEST => do
    let clientId ← nextString
    let sessionId ← nextString
    pure (disconnectRequest clientId sessionId)
  | .HELLO_RESPONSE => do
    let sessionId ← nextString
    pure (helloResponse sessionId)
  | .PUBLISH_MESSAGE_REQUEST => do
    let sessionId ← nextString
    let topic ← nextString
    let cloudEvent ← lib.deserializeCloudEvent
    pure (publishMessageRequest sessionId topic cloudEvent)
  | .GET_ALL_VPNS_RESPONSE => do
    let vpns ← nextStringArray
    pure (getAllVpnResponse vpns)
  | .ADD_VPN_REQUEST => do
    let vpn ← nextString
    pure (addVpnRequest vpn)
  | .READ_NEXT_MESSAGE_REQUEST => do
    let sessionId ← nextString
    let groupId ← nextString
    pure (readNextMessageRequest sessionId groupId)
  | .READ_NEXT_MESSAGE_RESPONSE => do
    let containsMessage ← nextBoolean
    if containsMessage then do
      let cloudEvt ← lib.deserializeCloudEvent
      let evtOffset ← nextInt
      pure (readNextMessageResponse (some cloudEvt) evtOffset)
    else pure (readNextMessageResponse none 0)
  | .READ_TOPIC_MESSAGE_REQUEST => do
    let topic ← nextString
    let evtOffset ← nextInt
    pure (readMessageTopicRequest topic evtOffset)
  | .READ_TOPIC_MESSAGE_RESPONSE => do
    let topic ← nextString
    let evtOffset ← nextInt
    let containsMessage ← nextBoolean
    if containsMessage then do
      let value ← lib.deserializeCloudEvent
      pure (readMessageTopicResponse topic evtOffset (some value))
    else pure (readMessageTopicResponse topic evtOffset none)
  | .ADD_BRIDGE_REQUEST => do
    let sourceVpn ← nextString
    let targetVpn ← nextString
    let targetUrn ← nextString
    let targetPort ← nextInt
    let targetClientId ← nextString
    pure (addBridgeRequest sourceVpn targetVpn targetUrn targetPort targetClientId)
  | .GET_ALL_BRIDGE_VPN_RESPONSE => do
    let servers ← nextMany BridgeServerResponse.deserialize
    pure (getAllBridgeResponse servers)
  | .GET_ALL_PLUGINS_RESPONSE => do
    let plugins ← nextMany PluginResponse.extract
    pure (getAllPluginsResponse plugins)
  | .ENABLE_PLUGIN_REQUEST => do
    let pluginName ← nextString
    pure (enablePluginRequest pluginName)
  | .DISABLE_PLUGIN_REQUEST => do
    let pluginName ← nextString
    pure (disablePluginRequest pluginName)
  | .GET_PLUGIN_CONFIGURATION_REQUEST => do
    let name ← nextString
    pure (getPluginConfigurationRequest name)
  | .GET_PLUGIN_CONFIGURATION_RESPONSE =>
    if status.equals .SUCCESS then do
      let records ← nextMany PluginConfigurationRecordResponse.extract
      pure (getPluginConfigurationResponse records)
    else pure (getPluginConfigurationResponse [])
  | .UPDATE_PLUGIN_CONFIGURATION_REQUEST =>
    if status.equals .SUCCESS then do
      let name ← nextString
      let propertyName ← nextString
      let propertyValue ← nextString
      pure (updatePluginConfigurationRequest (some name) (some propertyName) (some propertyValue))
    else pure (updatePluginConfigurationRequest none none none)
  | _ => pure package

end Body

namespace Package

/-- The text that a package begins with. -/
def magicCode : String := "EventMesh"

/-- The version of the protocol. -/
def protocolVersion : String := "0000"

/-- A package is written behind the texts of the protocol. -/
def serialize (p : Package (CloudEvent D V)) : List UInt8 :=
  writeString magicCode ++ writeString protocolVersion ++ p.header.serialize ++ p.body.serialize lib

/-- A package is read if its first texts are those of the protocol. -/
def deserialize : Reader UInt8 (Package (CloudEvent D V)) := do
  let _ ← nextString
  let _ ← nextString
  let header ← Header.deserialize
  let body ← Body.extract lib header.status header.command
  pure ⟨header, body⟩

end Package

/-! ## What a package consists of -/

namespace Body

variable {E : Type}

/-- The event of a message. -/
def event : Body E → Option E
  | publishMessageRequest _ _ cloudEvent => some cloudEvent
  | readNextMessageResponse cloudEvt _ => cloudEvt
  | readMessageTopicResponse _ _ value => value
  | _ => none

/-- The strings of a message, those of its event apart. -/
def strings : Body E → List String
  | helloRequest userAgent => userAgent.strings
  | subscriptionRequest sessionId groupId topicFilters => sessionId :: groupId :: topicFilters
  | addClientRequest vpn clientId _ => [vpn, clientId]
  | subscriptionResult queueName => [queueName]
  | disconnectRequest clientId sessionId => [clientId, sessionId]
  | helloResponse sessionId => [sessionId]
  | publishMessageRequest sessionId topic _ => [sessionId, topic]
  | getAllVpnResponse vpns => vpns
  | addVpnRequest vpn => [vpn]
  | readNextMessageRequest sessionId groupId => [sessionId, groupId]
  | readMessageTopicRequest topic _ => [topic]
  | readMessageTopicResponse topic _ _ => [topic]
  | addBridgeRequest sourceVpn targetVpn targetUrn _ targetClientId => [sourceVpn, targetVpn, targetUrn, targetClientId]
  | getAllBridgeResponse servers => servers.flatMap BridgeServerResponse.strings
  | getAllPluginsResponse plugins => plugins.flatMap PluginResponse.strings
  | enablePluginRequest pluginName => [pluginName]
  | disablePluginRequest pluginName => [pluginName]
  | getPluginConfigurationRequest name => [name]
  | getPluginConfigurationResponse records => records.flatMap PluginConfigurationRecordResponse.strings
  | updatePluginConfigurationRequest name propertyName propertyValue =>
    [name.getD "", propertyName.getD "", propertyValue.getD ""]
  | _ => []

/-- The lengths of the lists of a message, those of its event apart. -/
def counts : Body E → List Nat
  | subscriptionRequest _ _ topicFilters => [topicFilters.length]
  | addClientRequest _ _ purposes => [purposes.length]
  | getAllVpnResponse vpns => [vpns.length]
  | getAllBridgeResponse servers => [servers.length]
  | getAllPluginsResponse plugins => [plugins.length]
  | getPluginConfigurationResponse records => [records.length]
  | _ => []

/-- The integers of a body. -/
def ints : Body E → List Int
  | helloRequest userAgent => [userAgent.port, userAgent.pid]
  | readNextMessageResponse _ evtOffset => [evtOffset]
  | readMessageTopicRequest _ evtOffset => [evtOffset]
  | readMessageTopicResponse _ evtOffset _ => [evtOffset]
  | addBridgeRequest _ _ _ targetPort _ => [targetPort]
  | getAllBridgeResponse servers => servers.map BridgeServerResponse.targetPort
  | _ => []

/-- The expiration of a user agent. -/
def ticks : Body E → Option Int
  | helloRequest userAgent => userAgent.expiration
  | _ => none

/-- The values of a message are those the source's types have, and its strings are ASCII. -/
structure IsRepresentable (body : Body E) : Prop where
  strings : ∀ str ∈ body.strings, IsText str
  counts : ∀ count ∈ body.counts, IsCount count
  ints : ∀ i ∈ body.ints, IsInt i
  ticks : ∀ ticks ∈ body.ticks, IsLong ticks

/-- A bare package can be represented. -/
theorem isRepresentable_package : (package : Body E).IsRepresentable := ⟨nofun, nofun, nofun, nofun⟩

end Body

/-- The same of the whole package. -/
structure Package.IsRepresentable {E : Type} (p : Package E) : Prop where
  status : IsInt p.header.status.code
  header : ∀ str ∈ p.header.strings, IsText str
  body : p.body.IsRepresentable

/-! ## Reading the elements back -/

/-- A time span of no ticks is read as none. -/
theorem reads_timeSpan_received {sp : Option Int} (isLong : ∀ ticks ∈ sp, IsLong ticks) :
    Reads nextTimeSpan (writeTimeSpan sp) (if sp = some 0 then none else sp) := by
  split
  next zero =>
    have none : Reads nextTimeSpan (writeTimeSpan none) none := reads_timeSpan (by simp) (by simp)
    rw [zero]
    exact none
  next notZero => exact reads_timeSpan isLong notZero

namespace UserAgent

/-- The user agent that is read for one that was written. -/
def received (userAgent : UserAgent) : UserAgent :=
  { userAgent with expiration := if userAgent.expiration = some 0 then none else userAgent.expiration }

/-- A user agent arrives as it was sent, unless its expiration is zero. -/
theorem received_eq_iff {userAgent : UserAgent} : userAgent.received = userAgent ↔ userAgent.expiration ≠ some 0 := by
  obtain ⟨vpn, clientId, urn, port, password, version, purpose, pid, isSessionInfinite, expiration⟩ := userAgent
  by_cases zero : expiration = some 0
  · simp [received, zero]
  · simp [received, zero]

theorem reads {userAgent : UserAgent} (strings : ∀ str ∈ userAgent.strings, IsText str) (port : IsInt userAgent.port)
    (pid : IsInt userAgent.pid) (ticks : ∀ ticks ∈ userAgent.expiration, IsLong ticks) :
    Reads deserialize userAgent.serialize userAgent.received := by
  simp only [UserAgent.strings, List.forall_mem_cons] at strings
  obtain ⟨vpn, clientId, urn, password, version, -⟩ := strings
  simp only [serialize, List.append_assoc]
  exact (reads_string vpn).bind <| (reads_string clientId).bind <| (reads_string urn).bind <|
    (reads_integer port).bind <| (reads_string password).bind <| (reads_string version).bind <|
    (UserAgentPurpose.reads userAgent.purpose).bind <| (reads_integer pid).bind <|
    (reads_boolean userAgent.isSessionInfinite).bind (reads_timeSpan_received ticks).map

end UserAgent

theorem BridgeServerResponse.reads {server : BridgeServerResponse} (strings : ∀ str ∈ server.strings, IsText str)
    (targetPort : IsInt server.targetPort) : Reads deserialize server.serialize server := by
  simp only [BridgeServerResponse.strings, List.forall_mem_cons] at strings
  obtain ⟨sourceVpn, targetUrn, targetVpn, targetClientId, -⟩ := strings
  simp only [serialize, List.append_assoc]
  exact (reads_string sourceVpn).bind <| (reads_string targetUrn).bind <| (reads_integer targetPort).bind <|
    (reads_string targetVpn).bind (reads_string targetClientId).map

theorem PluginResponse.reads {plugin : PluginResponse} (strings : ∀ str ∈ plugin.strings, IsText str) :
    Reads extract plugin.serialize plugin := by
  simp only [PluginResponse.strings, List.forall_mem_cons] at strings
  obtain ⟨name, description, -⟩ := strings
  simp only [serialize, List.append_assoc]
  exact (reads_string name).bind <| (reads_string description).bind (reads_boolean plugin.isActive).map

theorem PluginConfigurationRecordResponse.reads {record : PluginConfigurationRecordResponse}
    (strings : ∀ str ∈ record.strings, IsText str) : Reads extract record.serialize record := by
  simp only [PluginConfigurationRecordResponse.strings, List.forall_mem_cons] at strings
  obtain ⟨name, description, defaultValue, configuredValue, -⟩ := strings
  simp only [serialize, List.append_assoc]
  exact (reads_string name).bind <| (reads_string description).bind <| (reads_string defaultValue).bind
    (reads_string configuredValue).map

/-! ## Reading the header back -/

namespace Package

/-- After the header, the class the command stands for reads what the class of the package wrote. -/
theorem deserialize_serialize {p : Package (CloudEvent D V)} (representable : p.IsRepresentable) :
    deserialize lib (p.serialize lib) =
      (Body.extract lib p.header.status p.header.command (p.body.serialize lib)).map
        fun read => (⟨p.header, read.1⟩, read.2) := by
  have magic : Reads nextString (writeString magicCode) magicCode := reads_string (by decide)
  have version : Reads nextString (writeString protocolVersion) protocolVersion := reads_string (by decide)
  have header := Header.reads representable.status representable.header
  simp only [serialize, List.append_assoc]
  rw [deserialize, magic.bind_apply, version.bind_apply, header.bind_apply]
  exact Reader.bind_pure_apply _

/-- A package is read back when its class reads back what it wrote. -/
theorem deserialize_serialize_iff {p : Package (CloudEvent D V)} (representable : p.IsRepresentable) :
    deserialize lib (p.serialize lib) = some (p, []) ↔
      Body.extract lib p.header.status p.header.command (p.body.serialize lib) = some (p.body, []) := by
  rw [deserialize_serialize lib representable, Option.map_eq_some_iff]
  constructor
  · rintro ⟨⟨body, rest⟩, read, same⟩
    obtain ⟨rfl, rfl⟩ : body = p.body ∧ rest = [] := by
      simpa [Prod.ext_iff, Package.ext_iff] using same
    exact read
  · intro read
    exact ⟨(p.body, []), read, rfl⟩

end Package

end

end FaasNet.EventMesh.Client
