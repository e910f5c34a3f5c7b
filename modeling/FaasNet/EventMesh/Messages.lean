import FaasNet.EventMesh.CloudEventCodec
import FaasNet.EventMesh.EventMeshNode

/-!
# The messages of the event mesh

`Package` and its subclasses, their header, and the two builders of them. A package is its header and
what its class adds; the class is the constructor of `Body`. The event of a message is a type variable.
Where a builder makes up a sequence number, the number is a parameter.
-/

namespace FaasNet.EventMesh.Client

open FaasNet.Lib FaasNet.RaftConsensus WriteBufferContext ReadBufferContext

/-! ## The header -/

/-- `Commands`. -/
inductive Commands where
  | HEARTBEAT_REQUEST
  | HEARTBEAT_RESPONSE
  | HELLO_REQUEST
  | HELLO_RESPONSE
  | SUBSCRIBE_REQUEST
  | SUBSCRIBE_RESPONSE
  | ADD_BRIDGE_REQUEST
  | ADD_BRIDGE_RESPONSE
  | DISCONNECT_REQUEST
  | DISCONNECT_RESPONSE
  | PUBLISH_MESSAGE_REQUEST
  | PUBLISH_MESSAGE_RESONSE
  | GET_ALL_VPNS_REQUEST
  | GET_ALL_VPNS_RESPONSE
  | ADD_CLIENT_REQUEST
  | ADD_CLIENT_RESPONSE
  | ADD_VPN_REQUEST
  | ADD_VPN_RESPONSE
  | READ_NEXT_MESSAGE_REQUEST
  | READ_NEXT_MESSAGE_RESPONSE
  | READ_TOPIC_MESSAGE_REQUEST
  | READ_TOPIC_MESSAGE_RESPONSE
  | GET_ALL_BRIDGE_VPN_REQUEST
  | GET_ALL_BRIDGE_VPN_RESPONSE
  | GET_ALL_PLUGINS_REQUEST
  | GET_ALL_PLUGINS_RESPONSE
  | ENABLE_PLUGIN_REQUEST
  | ENABLE_PLUGIN_RESPONSE
  | DISABLE_PLUGIN_REQUEST
  | DISABLE_PLUGIN_RESPONSE
  | GET_PLUGIN_CONFIGURATION_REQUEST
  | GET_PLUGIN_CONFIGURATION_RESPONSE
  | UPDATE_PLUGIN_CONFIGURATION_REQUEST
  | UPDATE_PLUGIN_CONFIGURATION_RESPONSE
  deriving DecidableEq, Repr

namespace Commands

/-- The commands in the order of their codes, which are 0 to 33. -/
def all : List Commands :=
  [HEARTBEAT_REQUEST, HEARTBEAT_RESPONSE, HELLO_REQUEST, HELLO_RESPONSE, SUBSCRIBE_REQUEST, SUBSCRIBE_RESPONSE,
    ADD_BRIDGE_REQUEST, ADD_BRIDGE_RESPONSE, DISCONNECT_REQUEST, DISCONNECT_RESPONSE, PUBLISH_MESSAGE_REQUEST,
    PUBLISH_MESSAGE_RESONSE, GET_ALL_VPNS_REQUEST, GET_ALL_VPNS_RESPONSE, ADD_CLIENT_REQUEST, ADD_CLIENT_RESPONSE,
    ADD_VPN_REQUEST, ADD_VPN_RESPONSE, READ_NEXT_MESSAGE_REQUEST, READ_NEXT_MESSAGE_RESPONSE,
    READ_TOPIC_MESSAGE_REQUEST, READ_TOPIC_MESSAGE_RESPONSE, GET_ALL_BRIDGE_VPN_REQUEST, GET_ALL_BRIDGE_VPN_RESPONSE,
    GET_ALL_PLUGINS_REQUEST, GET_ALL_PLUGINS_RESPONSE, ENABLE_PLUGIN_REQUEST, ENABLE_PLUGIN_RESPONSE,
    DISABLE_PLUGIN_REQUEST, DISABLE_PLUGIN_RESPONSE, GET_PLUGIN_CONFIGURATION_REQUEST,
    GET_PLUGIN_CONFIGURATION_RESPONSE, UPDATE_PLUGIN_CONFIGURATION_REQUEST, UPDATE_PLUGIN_CONFIGURATION_RESPONSE]

/-- The number of a command is its place among all. -/
def code (command : Commands) : Int := all.idxOf command

/-- The command of a code; `Single` throws when there is none. -/
def init (code : Int) : Option Commands := all.find? (·.code = code)

end Commands

/-- `HeaderStatus`; a status that was read keeps whatever code and text it came with. -/
structure HeaderStatus where
  code : Int
  desc : String
  deriving DecidableEq, Repr

namespace HeaderStatus

/-- A request that succeeded. -/
def SUCCESS : HeaderStatus := ⟨0, "success"⟩

/-- A request that failed. -/
def FAIL : HeaderStatus := ⟨1, "fail"⟩

/-- `Equals`, which compares hash codes, and these are the codes. -/
def equals (status other : HeaderStatus) : Bool := status.code = other.code

end HeaderStatus

/-- `Errors`. -/
structure Errors where
  code : String
  deriving DecidableEq, Repr

namespace Errors

/-- The errors the class declares; the code of an error is its name. -/
def all : List Errors :=
  [⟨"NO_ACTIVE_SESSION"⟩, ⟨"NOT_AUTHORIZED"⟩, ⟨"NO_BRIDGE_SERVER"⟩, ⟨"TARGET_NOT_REACHABLE"⟩, ⟨"INVALID_URL"⟩,
    ⟨"INVALID_CLIENT"⟩, ⟨"INVALID_SESSION"⟩, ⟨"INTERNAL_ERROR"⟩, ⟨"INVALID_SEQ"⟩, ⟨"INVALID_BRIDGE"⟩,
    ⟨"BRIDGE_NOT_ACTIVE"⟩, ⟨"UNKNOWN_BRIDGE"⟩, ⟨"UNKNOWN_VPN"⟩, ⟨"UNKNOWN_SOURCE_VPN"⟩, ⟨"UNKNOWN_TARGET_VPN"⟩,
    ⟨"UNKNOWN_PLUGIN"⟩, ⟨"UNKNOWN_PLUGIN_PROPERTY"⟩, ⟨"UNAUTHORIZED_PUBLISH"⟩, ⟨"UNAUTHORIZED_SUBSCRIBE"⟩,
    ⟨"SESSION_LIFETIME_TOOLONG"⟩, ⟨"SESSION_LIFETIME_CANNOT_BE_INFINITE"⟩, ⟨"SESSION_LIFETIME_TOOSHORT"⟩,
    ⟨"VPN_ALREADY_EXISTS"⟩, ⟨"CLIENT_ALREADY_EXISTS"⟩, ⟨"CANNOT_DISABLE_DISCOVERY_PLUGIN"⟩]

end Errors

/-- `Header`. There is an error exactly when the status is not SUCCESS: the builders and `Deserialize`
see to it, and `Serialize` relies on it. -/
@[ext] structure Header where
  command : Commands
  status : HeaderStatus
  error : Option Errors
  seq : String
  failed : error.isSome = !status.equals .SUCCESS
  deriving DecidableEq

/-! ## The classes -/

/-- `UserAgent`. The expiration is its ticks. -/
structure UserAgent where
  vpn : String
  clientId : String
  urn : String
  port : Int
  password : String
  version : String
  purpose : UserAgentPurpose
  pid : Int
  isSessionInfinite : Bool
  expiration : Option Int
  deriving DecidableEq, Repr

/-- `BridgeServerResponse`. -/
structure BridgeServerResponse where
  sourceVpn : String
  targetUrn : String
  targetPort : Int
  targetVpn : String
  targetClientId : String
  deriving DecidableEq, Repr

/-- `PluginResponse`. -/
structure PluginResponse where
  name : String
  description : String
  isActive : Bool
  deriving DecidableEq, Repr

/-- `PluginConfigurationRecordResponse`. -/
structure PluginConfigurationRecordResponse where
  name : String
  description : String
  defaultValue : String
  configuredValue : String
  deriving DecidableEq, Repr

/-- What a class adds to `Package`, which is the first constructor. A `SubscriptionItem` is its topic, and
`ContainsMessage` says whether there is an event. The strings of an `UpdatePluginConfigurationRequest`
stay `null` where they are not read. -/
inductive Body (E : Type) where
  | package
  | helloRequest (userAgent : UserAgent)
  | subscriptionRequest (sessionId groupId : String) (topicFilters : List String)
  | addClientRequest (vpn clientId : String) (purposes : List UserAgentPurpose)
  | addClientResponse
  | subscriptionResult (queueName : String)
  | disconnectRequest (clientId sessionId : String)
  | helloResponse (sessionId : String)
  | publishMessageRequest (sessionId topic : String) (cloudEvent : E)
  | getAllVpnRequest
  | getAllVpnResponse (vpns : List String)
  | addVpnRequest (vpn : String)
  | readNextMessageRequest (sessionId groupId : String)
  | readNextMessageResponse (cloudEvt : Option E) (evtOffset : Int)
  | readMessageTopicRequest (topic : String) (evtOffset : Int)
  | readMessageTopicResponse (topic : String) (evtOffset : Int) (value : Option E)
  | addBridgeRequest (sourceVpn targetVpn targetUrn : String) (targetPort : Int) (targetClientId : String)
  | getAllBridgeResponse (servers : List BridgeServerResponse)
  | getAllPluginsRequest
  | getAllPluginsResponse (plugins : List PluginResponse)
  | enablePluginRequest (pluginName : String)
  | disablePluginRequest (pluginName : String)
  | getPluginConfigurationRequest (name : String)
  | getPluginConfigurationResponse (records : List PluginConfigurationRecordResponse)
  | updatePluginConfigurationRequest (name propertyName propertyValue : Option String)
  deriving DecidableEq

/-- `Package`. -/
@[ext] structure Package (E : Type) where
  header : Header
  body : Body E
  deriving DecidableEq

/-! ## The builders -/

/-- A header of SUCCESS. -/
def Header.success (command : Commands) (seq : String) : Header := ⟨command, .SUCCESS, none, seq, rfl⟩

namespace PackageRequestBuilder

section
variable {E : Type} (seq : String)

/-- Is the node alive? -/
def heartBeat : Package E := ⟨.success .HEARTBEAT_REQUEST seq, .package⟩

/-- The bridges are asked for. -/
def getAllBridge : Package E := ⟨.success .GET_ALL_BRIDGE_VPN_REQUEST seq, .package⟩

/-- A VPN is added. -/
def addVPN (vpn : String) : Package E := ⟨.success .ADD_VPN_REQUEST seq, .addVpnRequest vpn⟩

/-- A client is added. -/
def addClient (vpn clientId : String) (purposes : List UserAgentPurpose) : Package E :=
  ⟨.success .ADD_CLIENT_REQUEST seq, .addClientRequest vpn clientId purposes⟩

/-- A session is asked for. -/
def hello (userAgent : UserAgent) : Package E := ⟨.success .HELLO_REQUEST seq, .helloRequest userAgent⟩

/-- The VPNs are asked for. -/
def getAllVpns : Package E := ⟨.success .GET_ALL_VPNS_REQUEST seq, .getAllVpnRequest⟩

/-- A session is closed. -/
def disconnect (clientId sessionId : String) : Package E :=
  ⟨.success .DISCONNECT_REQUEST seq, .disconnectRequest clientId sessionId⟩

/-- A group subscribes to topics. -/
def subscribe (groupId : String) (subscriptionItems : List String) (sessionId : String) : Package E :=
  ⟨.success .SUBSCRIBE_REQUEST seq, .subscriptionRequest sessionId groupId subscriptionItems⟩

/-- An event is published. -/
def publishMessage (sessionId topicName : String) (cloudEvent : E) : Package E :=
  ⟨.success .PUBLISH_MESSAGE_REQUEST seq, .publishMessageRequest sessionId topicName cloudEvent⟩

/-- A bridge is added. -/
def addBridge (vpn urn : String) (port : Int) (targetVpn targetClientId : String) : Package E :=
  ⟨.success .ADD_BRIDGE_REQUEST seq, .addBridgeRequest vpn targetVpn urn port targetClientId⟩

/-- The next message of a group is asked for. -/
def readNextMessage (sessionId groupId : String) : Package E :=
  ⟨.success .READ_NEXT_MESSAGE_REQUEST seq, .readNextMessageRequest sessionId groupId⟩

/-- A message of a topic is asked for. -/
def readTopicMessage (topic : String) (evtOffset : Int) : Package E :=
  ⟨.success .READ_TOPIC_MESSAGE_REQUEST seq, .readMessageTopicRequest topic evtOffset⟩

/-- The plugins are asked for. -/
def getAllPlugins : Package E := ⟨.success .GET_ALL_PLUGINS_REQUEST seq, .getAllPluginsRequest⟩

/-- A plugin is enabled. -/
def enablePlugin (pluginName : String) : Package E :=
  ⟨.success .ENABLE_PLUGIN_REQUEST seq, .enablePluginRequest pluginName⟩

/-- A plugin is disabled. -/
def disablePlugin (pluginName : String) : Package E :=
  ⟨.success .DISABLE_PLUGIN_REQUEST seq, .disablePluginRequest pluginName⟩

/-- The configuration of a plugin is asked for. -/
def getPluginConfiguration (pluginName : String) : Package E :=
  ⟨.success .GET_PLUGIN_CONFIGURATION_REQUEST seq, .getPluginConfigurationRequest pluginName⟩

/-- A property of a plugin gets a value. -/
def updatePluginConfiguration (pluginName propertyName propertyValue : String) : Package E :=
  ⟨.success .UPDATE_PLUGIN_CONFIGURATION_REQUEST seq,
    .updatePluginConfigurationRequest (some pluginName) (some propertyName) (some propertyValue)⟩

end

end PackageRequestBuilder

namespace Constants

/-- The command that answers a command. -/
def mappingRequestToResponse : List (Commands × Commands) :=
  [(.GET_ALL_BRIDGE_VPN_REQUEST, .GET_ALL_BRIDGE_VPN_RESPONSE), (.ADD_BRIDGE_REQUEST, .ADD_BRIDGE_RESPONSE),
    (.DISCONNECT_REQUEST, .DISCONNECT_RESPONSE), (.HEARTBEAT_REQUEST, .HEARTBEAT_RESPONSE),
    (.HELLO_REQUEST, .HELLO_RESPONSE), (.SUBSCRIBE_REQUEST, .SUBSCRIBE_RESPONSE),
    (.PUBLISH_MESSAGE_REQUEST, .PUBLISH_MESSAGE_RESONSE), (.GET_ALL_VPNS_REQUEST, .GET_ALL_VPNS_RESPONSE),
    (.ADD_VPN_REQUEST, .ADD_VPN_RESPONSE), (.ADD_CLIENT_REQUEST, .ADD_CLIENT_RESPONSE),
    (.GET_ALL_PLUGINS_REQUEST, .GET_ALL_PLUGINS_RESPONSE), (.ENABLE_PLUGIN_REQUEST, .ENABLE_PLUGIN_RESPONSE),
    (.DISABLE_PLUGIN_REQUEST, .DISABLE_PLUGIN_RESPONSE),
    (.GET_PLUGIN_CONFIGURATION_REQUEST, .GET_PLUGIN_CONFIGURATION_RESPONSE),
    (.UPDATE_PLUGIN_CONFIGURATION_REQUEST, .UPDATE_PLUGIN_CONFIGURATION_RESPONSE)]

end Constants

namespace PackageResponseBuilder

section
variable {E : Type} (seq : String)

/-- The node is alive. -/
def heartBeat : Package E := ⟨.success .HEARTBEAT_RESPONSE seq, .package⟩

/-- The session that was asked for. -/
def hello (sessionId : String) : Package E := ⟨.success .HELLO_RESPONSE seq, .helloResponse sessionId⟩

/-- The client is added. -/
def client : Package E := ⟨.success .ADD_CLIENT_RESPONSE seq, .addClientResponse⟩

/-- The VPNs. -/
def getAllVpns (vpns : List String) : Package E := ⟨.success .GET_ALL_VPNS_RESPONSE seq, .getAllVpnResponse vpns⟩

/-- `Subscription(seq, queueName)`; `Subscription(seq)` has the empty name. -/
def subscription (queueName : String) : Package E :=
  ⟨.success .SUBSCRIBE_RESPONSE seq, .subscriptionResult queueName⟩

/-- The bridge is added. -/
def addBridge : Package E := ⟨.success .ADD_BRIDGE_RESPONSE seq, .package⟩

/-- The event is published. -/
def publishMessage : Package E := ⟨.success .PUBLISH_MESSAGE_RESONSE seq, .package⟩

/-- The session is closed. -/
def disconnect : Package E := ⟨.success .DISCONNECT_RESPONSE seq, .package⟩

/-- The VPN is added. -/
def addVpn : Package E := ⟨.success .ADD_VPN_RESPONSE seq, .package⟩

/-- The bridges. -/
def getBridges (servers : List BridgeServerResponse) : Package E :=
  ⟨.success .GET_ALL_BRIDGE_VPN_RESPONSE seq, .getAllBridgeResponse servers⟩

/-- The next message, if there is one. -/
def readNextMessage (cloudEvt : Option E) : Package E :=
  ⟨.success .READ_NEXT_MESSAGE_RESPONSE seq, .readNextMessageResponse cloudEvt 0⟩

/-- The message of the topic. -/
def readTopicMessage (topic : String) (value : Option E) (evtOffset : Int) : Package E :=
  ⟨.success .READ_TOPIC_MESSAGE_RESPONSE seq, .readMessageTopicResponse topic evtOffset value⟩

/-- The plugins. -/
def getAllPlugins (plugins : List PluginResponse) : Package E :=
  ⟨.success .GET_ALL_PLUGINS_RESPONSE seq, .getAllPluginsResponse plugins⟩

/-- The plugin is enabled. -/
def enablePlugin : Package E := ⟨.success .ENABLE_PLUGIN_RESPONSE seq, .package⟩

/-- The plugin is disabled. -/
def disablePlugin : Package E := ⟨.success .DISABLE_PLUGIN_RESPONSE seq, .package⟩

/-- The configuration of the plugin. -/
def getPluginConfiguration (records : List PluginConfigurationRecordResponse) : Package E :=
  ⟨.success .GET_PLUGIN_CONFIGURATION_RESPONSE seq, .getPluginConfigurationResponse records⟩

/-- The class is that of the answer to another command. -/
def updatePluginConfiguration : Package E :=
  ⟨.success .UPDATE_PLUGIN_CONFIGURATION_RESPONSE seq, .getPluginConfigurationResponse []⟩

/-- `Error`; `none` is the exception for a command the mapping lacks. -/
def error (requestCommand : Commands) (error : Errors) : Option (Package E) :=
  (Constants.mappingRequestToResponse.lookup requestCommand).map fun command =>
    ⟨⟨command, .FAIL, some error, seq, rfl⟩, .package⟩

end

end PackageResponseBuilder

end FaasNet.EventMesh.Client
