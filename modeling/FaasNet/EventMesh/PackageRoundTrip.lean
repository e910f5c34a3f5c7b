import FaasNet.EventMesh.PackageCodec

/-!
# Round trips of the builders' packages

Which packages of `PackageRequestBuilder` and `PackageResponseBuilder` are read back as they were written.
Some are not: two requests and an answer have a class their command does not stand for, an expiration of
no ticks becomes none, and an error is read as the answer to its request.
-/

namespace FaasNet.EventMesh.Client

open FaasNet.Lib FaasNet.RaftConsensus WriteBufferContext ReadBufferContext

section
variable {E : Type}

/-- The packages the builders make. -/
inductive Built : Package E → Prop
  | heartBeatRequest (seq) : Built (PackageRequestBuilder.heartBeat seq)
  | getAllBridge (seq) : Built (PackageRequestBuilder.getAllBridge seq)
  | addVPN (seq vpn) : Built (PackageRequestBuilder.addVPN seq vpn)
  | addClient (seq vpn clientId purposes) : Built (PackageRequestBuilder.addClient seq vpn clientId purposes)
  | helloRequest (seq userAgent) : Built (PackageRequestBuilder.hello seq userAgent)
  | getAllVpnsRequest (seq) : Built (PackageRequestBuilder.getAllVpns seq)
  | disconnectRequest (seq clientId sessionId) : Built (PackageRequestBuilder.disconnect seq clientId sessionId)
  | subscribe (seq groupId items sessionId) : Built (PackageRequestBuilder.subscribe seq groupId items sessionId)
  | publishMessageRequest (seq sessionId topicName cloudEvent) :
    Built (PackageRequestBuilder.publishMessage seq sessionId topicName cloudEvent)
  | addBridgeRequest (seq vpn urn port targetVpn targetClientId) :
    Built (PackageRequestBuilder.addBridge seq vpn urn port targetVpn targetClientId)
  | readNextMessageRequest (seq sessionId groupId) : Built (PackageRequestBuilder.readNextMessage seq sessionId groupId)
  | readTopicMessageRequest (seq topic evtOffset) : Built (PackageRequestBuilder.readTopicMessage seq topic evtOffset)
  | getAllPluginsRequest (seq) : Built (PackageRequestBuilder.getAllPlugins seq)
  | enablePluginRequest (seq pluginName) : Built (PackageRequestBuilder.enablePlugin seq pluginName)
  | disablePluginRequest (seq pluginName) : Built (PackageRequestBuilder.disablePlugin seq pluginName)
  | getPluginConfigurationRequest (seq pluginName) :
    Built (PackageRequestBuilder.getPluginConfiguration seq pluginName)
  | updatePluginConfigurationRequest (seq pluginName propertyName propertyValue) :
    Built (PackageRequestBuilder.updatePluginConfiguration seq pluginName propertyName propertyValue)
  | heartBeatResponse (seq) : Built (PackageResponseBuilder.heartBeat seq)
  | helloResponse (seq sessionId) : Built (PackageResponseBuilder.hello seq sessionId)
  | client (seq) : Built (PackageResponseBuilder.client seq)
  | getAllVpnsResponse (seq vpns) : Built (PackageResponseBuilder.getAllVpns seq vpns)
  | subscription (seq queueName) : Built (PackageResponseBuilder.subscription seq queueName)
  | addBridgeResponse (seq) : Built (PackageResponseBuilder.addBridge seq)
  | publishMessageResponse (seq) : Built (PackageResponseBuilder.publishMessage seq)
  | disconnectResponse (seq) : Built (PackageResponseBuilder.disconnect seq)
  | addVpn (seq) : Built (PackageResponseBuilder.addVpn seq)
  | getBridges (seq servers) : Built (PackageResponseBuilder.getBridges seq servers)
  | readNextMessageResponse (seq cloudEvt) : Built (PackageResponseBuilder.readNextMessage seq cloudEvt)
  | readTopicMessageResponse (seq topic value evtOffset) :
    Built (PackageResponseBuilder.readTopicMessage seq topic value evtOffset)
  | getAllPluginsResponse (seq plugins) : Built (PackageResponseBuilder.getAllPlugins seq plugins)
  | enablePluginResponse (seq) : Built (PackageResponseBuilder.enablePlugin seq)
  | disablePluginResponse (seq) : Built (PackageResponseBuilder.disablePlugin seq)
  | getPluginConfigurationResponse (seq records) : Built (PackageResponseBuilder.getPluginConfiguration seq records)
  | updatePluginConfigurationResponse (seq) : Built (PackageResponseBuilder.updatePluginConfiguration seq)
  | error {seq requestCommand error p} (made : PackageResponseBuilder.error seq requestCommand error = some p) : Built p

/-- The answers whose class is not `Package`. -/
def Commands.ofOtherClass : List Commands :=
  [.HELLO_RESPONSE, .SUBSCRIBE_RESPONSE, .ADD_CLIENT_RESPONSE, .GET_ALL_VPNS_RESPONSE, .GET_ALL_BRIDGE_VPN_RESPONSE,
    .GET_ALL_PLUGINS_RESPONSE, .GET_PLUGIN_CONFIGURATION_RESPONSE]

/-- What a package must not be to be read back. -/
structure ReadsBack (p : Package E) : Prop where
  vpns : p.body ≠ .getAllVpnRequest
  plugins : p.body ≠ .getAllPluginsRequest
  update : p.header.command = .UPDATE_PLUGIN_CONFIGURATION_RESPONSE → p.body = .package
  expiration : p.body.ticks ≠ some 0
  error : p.header.status = .FAIL → p.header.command ∉ Commands.ofOtherClass

/-- An answer of SUCCESS is read back unless its class is wrong. -/
theorem readsBack_success {command : Commands} {seq : String} {body : Body E} (vpns : body ≠ .getAllVpnRequest)
    (plugins : body ≠ .getAllPluginsRequest) (update : command ≠ .UPDATE_PLUGIN_CONFIGURATION_RESPONSE)
    (expiration : body.ticks ≠ some 0) : ReadsBack ⟨Header.success command seq, body⟩ :=
  ⟨vpns, plugins, fun same => absurd same update, expiration,
    fun fail => absurd fail (by simp [Header.success, HeaderStatus.SUCCESS, HeaderStatus.FAIL])⟩

end

section
variable {D V : Type} (lib : CloudEventLibrary D V)

namespace Body

/-! ## Reading each class back -/

/-- The command a class is read for. -/
def command : Body (CloudEvent D V) → Option Commands
  | helloRequest _ => some .HELLO_REQUEST
  | subscriptionRequest _ _ _ => some .SUBSCRIBE_REQUEST
  | addClientRequest _ _ _ => some .ADD_CLIENT_REQUEST
  | addClientResponse => some .ADD_CLIENT_RESPONSE
  | subscriptionResult _ => some .SUBSCRIBE_RESPONSE
  | disconnectRequest _ _ => some .DISCONNECT_REQUEST
  | helloResponse _ => some .HELLO_RESPONSE
  | publishMessageRequest _ _ _ => some .PUBLISH_MESSAGE_REQUEST
  | getAllVpnResponse _ => some .GET_ALL_VPNS_RESPONSE
  | addVpnRequest _ => some .ADD_VPN_REQUEST
  | readNextMessageRequest _ _ => some .READ_NEXT_MESSAGE_REQUEST
  | readNextMessageResponse _ _ => some .READ_NEXT_MESSAGE_RESPONSE
  | readMessageTopicRequest _ _ => some .READ_TOPIC_MESSAGE_REQUEST
  | readMessageTopicResponse _ _ _ => some .READ_TOPIC_MESSAGE_RESPONSE
  | addBridgeRequest _ _ _ _ _ => some .ADD_BRIDGE_REQUEST
  | getAllBridgeResponse _ => some .GET_ALL_BRIDGE_VPN_RESPONSE
  | getAllPluginsResponse _ => some .GET_ALL_PLUGINS_RESPONSE
  | enablePluginRequest _ => some .ENABLE_PLUGIN_REQUEST
  | disablePluginRequest _ => some .DISABLE_PLUGIN_REQUEST
  | getPluginConfigurationRequest _ => some .GET_PLUGIN_CONFIGURATION_REQUEST
  | getPluginConfigurationResponse _ => some .GET_PLUGIN_CONFIGURATION_RESPONSE
  | updatePluginConfigurationRequest _ _ _ => some .UPDATE_PLUGIN_CONFIGURATION_REQUEST
  | package => none
  | getAllVpnRequest => none
  | getAllPluginsRequest => none

/-- What the wire keeps of a message: an event that arrives, an expiration that is not zero, an offset only
with an event, and strings that are there. -/
structure KeptByWire (body : Body (CloudEvent D V)) : Prop extends body.IsRepresentable where
  event : ∀ cloudEvent ∈ body.event, Reads lib.deserializeCloudEvent (lib.serialize cloudEvent) cloudEvent
  expiration : body.ticks ≠ some 0
  offset : ∀ evtOffset, body = readNextMessageResponse none evtOffset → evtOffset = 0
  notNull : ∀ name propertyName propertyValue,
    body = updatePluginConfigurationRequest name propertyName propertyValue →
      name.isSome ∧ propertyName.isSome ∧ propertyValue.isSome

/-- With the status SUCCESS, a class reads back what it wrote. -/
theorem reads {body : Body (CloudEvent D V)} {cmd : Commands} (own : body.command = some cmd)
    (kept : body.KeptByWire lib) : Reads (extract lib .SUCCESS cmd) (body.serialize lib) body := by
  have texts := kept.strings
  have counts := kept.counts
  have integers := kept.ints
  cases body <;> simp only [command, Option.some_inj, reduceCtorEq] at own <;> subst own <;>
    simp only [strings, Body.counts, Body.ints, List.forall_mem_cons, List.not_mem_nil, false_implies, implies_true,
      and_true] at texts counts integers
  case helloRequest userAgent =>
    have read := UserAgent.reads texts integers.1 integers.2 kept.ticks
    rw [UserAgent.received_eq_iff.mpr kept.expiration] at read
    exact read.map
  case subscriptionRequest sessionId groupId topicFilters =>
    obtain ⟨sessionText, groupText, topics⟩ := texts
    have many := reads_many counts fun topic member => reads_string (topics topic member)
    simp only [serialize, List.append_assoc]
    exact (reads_string sessionText).bind <| (reads_string groupText).bind many.map
  case addClientRequest vpn clientId purposes =>
    have many := reads_many counts fun purpose _ => UserAgentPurpose.reads purpose
    simp only [serialize, List.append_assoc]
    exact (reads_string texts.1).bind <| (reads_string texts.2).bind many.map
  case addClientResponse => exact Reads.pure _
  case subscriptionResult queueName => exact (reads_string texts).map
  case disconnectRequest clientId sessionId => exact (reads_string texts.1).bind (reads_string texts.2).map
  case helloResponse sessionId => exact (reads_string texts).map
  case publishMessageRequest sessionId topic cloudEvent =>
    simp only [serialize, List.append_assoc]
    exact (reads_string texts.1).bind <| (reads_string texts.2).bind (kept.event cloudEvent rfl).map
  case getAllVpnResponse vpns =>
    exact (reads_many counts fun vpn member => reads_string (texts vpn member)).map
  case addVpnRequest vpn => exact (reads_string texts).map
  case readNextMessageRequest sessionId groupId => exact (reads_string texts.1).bind (reads_string texts.2).map
  case readNextMessageResponse cloudEvt evtOffset =>
    cases cloudEvt with
    | none =>
      obtain rfl := kept.offset evtOffset rfl
      exact (reads_boolean false).bind (Reads.pure _)
    | some cloudEvt =>
      simp only [serialize, List.append_assoc]
      exact (reads_boolean true).bind <| (kept.event cloudEvt rfl).bind (reads_integer integers).map
  case readMessageTopicRequest topic evtOffset => exact (reads_string texts).bind (reads_integer integers).map
  case readMessageTopicResponse topic evtOffset value =>
    cases value with
    | none =>
      simp only [serialize, List.append_assoc]
      exact (reads_string texts).bind <| (reads_integer integers).bind <| (reads_boolean false).bind (Reads.pure _)
    | some value =>
      simp only [serialize, List.append_assoc]
      exact (reads_string texts).bind <| (reads_integer integers).bind <| (reads_boolean true).bind
        (kept.event value rfl).map
  case addBridgeRequest sourceVpn targetVpn targetUrn targetPort targetClientId =>
    obtain ⟨source, target, urn, client⟩ := texts
    simp only [serialize, List.append_assoc]
    exact (reads_string source).bind <| (reads_string target).bind <| (reads_string urn).bind <|
      (reads_integer integers).bind (reads_string client).map
  case getAllBridgeResponse servers =>
    refine (reads_many counts fun server member => BridgeServerResponse.reads ?_ ?_).map
    · exact fun str inside => texts str (List.mem_flatMap.mpr ⟨server, member, inside⟩)
    · exact integers _ (List.mem_map.mpr ⟨server, member, rfl⟩)
  case getAllPluginsResponse plugins =>
    refine (reads_many counts fun plugin member => PluginResponse.reads ?_).map
    exact fun str inside => texts str (List.mem_flatMap.mpr ⟨plugin, member, inside⟩)
  case enablePluginRequest pluginName => exact (reads_string texts).map
  case disablePluginRequest pluginName => exact (reads_string texts).map
  case getPluginConfigurationRequest name => exact (reads_string texts).map
  case getPluginConfigurationResponse records =>
    refine (reads_many counts fun record member => PluginConfigurationRecordResponse.reads ?_).map
    exact fun str inside => texts str (List.mem_flatMap.mpr ⟨record, member, inside⟩)
  case updatePluginConfigurationRequest name propertyName propertyValue =>
    obtain ⟨nameSome, propertyNameSome, propertyValueSome⟩ := kept.notNull name propertyName propertyValue rfl
    obtain ⟨name, rfl⟩ := Option.isSome_iff_exists.mp nameSome
    obtain ⟨propertyName, rfl⟩ := Option.isSome_iff_exists.mp propertyNameSome
    obtain ⟨propertyValue, rfl⟩ := Option.isSome_iff_exists.mp propertyValueSome
    obtain ⟨nameText, propertyText, valueText⟩ := texts
    simp only [serialize, List.append_assoc]
    exact (reads_string nameText).bind <| (reads_string propertyText).bind (reads_string valueText).map

end Body

/-! ## The builders' packages -/

variable {lib}

/-- A package of SUCCESS whose class is the one its command stands for. -/
theorem extract_success_iff {command : Commands} {seq : String} {body : Body (CloudEvent D V)}
    (own : body.command = some command) (kept : body.KeptByWire lib) :
    Body.extract lib (Header.success command seq).status (Header.success command seq).command (body.serialize lib) =
      some (body, []) ↔ ReadsBack ⟨Header.success command seq, body⟩ := by
  refine iff_of_true (Body.reads lib own kept).eq_some (readsBack_success ?_ ?_ ?_ kept.expiration)
  · rintro rfl
    simp [Body.command] at own
  · rintro rfl
    simp [Body.command] at own
  · rintro rfl
    cases body <;> simp [Body.command] at own

/-- A package without fields is read as such where its command stands for no class. -/
theorem extract_package_iff {command : Commands} {seq : String} (update : command ≠ .UPDATE_PLUGIN_CONFIGURATION_RESPONSE)
    (plain : Body.extract lib .SUCCESS command [] = some (.package, [])) :
    Body.extract lib (Header.success command seq).status (Header.success command seq).command
      (Body.package.serialize lib) = some (.package, []) ↔
      ReadsBack (⟨Header.success command seq, .package⟩ : Package (CloudEvent D V)) :=
  iff_of_true plain (readsBack_success (by simp) (by simp) update (by simp [Body.ticks]))

/-- A user agent is read back where its expiration is not zero. -/
theorem extract_hello_iff {seq : String} {userAgent : UserAgent}
    (representable : (Body.helloRequest userAgent : Body (CloudEvent D V)).IsRepresentable) :
    Body.extract lib .SUCCESS .HELLO_REQUEST ((Body.helloRequest userAgent).serialize lib) =
      some (.helloRequest userAgent, []) ↔
      ReadsBack (PackageRequestBuilder.hello seq userAgent : Package (CloudEvent D V)) := by
  have integers := representable.ints
  simp only [Body.ints, List.forall_mem_cons] at integers
  have read : Reads (Body.extract lib .SUCCESS .HELLO_REQUEST) ((Body.helloRequest userAgent).serialize lib)
      (.helloRequest userAgent.received) :=
    (UserAgent.reads representable.strings integers.1 integers.2.1 representable.ticks).map
  rw [read.eq_some]
  have same : some ((Body.helloRequest userAgent.received : Body (CloudEvent D V)), ([] : List UInt8)) =
      some (.helloRequest userAgent, []) ↔ userAgent.received = userAgent := by simp
  rw [same, UserAgent.received_eq_iff]
  constructor
  · exact fun notZero => readsBack_success (by simp) (by simp) (by simp) notZero
  · exact fun back => back.expiration

/-- An error is read back where its command stands for no class. -/
theorem extract_error_iff {seq : String} {requestCommand : Commands} {error : Errors} {p : Package (CloudEvent D V)}
    (made : PackageResponseBuilder.error seq requestCommand error = some p) :
    Body.extract lib p.header.status p.header.command (p.body.serialize lib) = some (p.body, []) ↔ ReadsBack p := by
  obtain ⟨command, mapped, rfl⟩ := Option.map_eq_some_iff.mp made
  have back : ReadsBack (⟨⟨command, .FAIL, some error, seq, rfl⟩, .package⟩ : Package (CloudEvent D V)) ↔
      command ∉ Commands.ofOtherClass := by
    constructor
    · exact fun back => back.error rfl
    · intro plain
      exact ⟨by simp, by simp, fun _ => rfl, by simp [Body.ticks], fun _ => plain⟩
  rw [back]
  cases requestCommand <;> cases mapped
  -- These answers have fields, or are read by another class.
  case GET_ALL_BRIDGE_VPN_REQUEST => exact iff_of_false nofun (by decide)
  case HELLO_REQUEST => exact iff_of_false nofun (by decide)
  case SUBSCRIBE_REQUEST => exact iff_of_false nofun (by decide)
  case GET_ALL_VPNS_REQUEST => exact iff_of_false nofun (by decide)
  case ADD_CLIENT_REQUEST => exact iff_of_false nofun (by decide)
  case GET_ALL_PLUGINS_REQUEST => exact iff_of_false nofun (by decide)
  case GET_PLUGIN_CONFIGURATION_REQUEST => exact iff_of_false nofun (by decide)
  all_goals exact iff_of_true rfl (by decide)

/-- Every package of a builder is kept, where it carries no event and no expiration of zero. -/
theorem Built.keptByWire {p : Package (CloudEvent D V)} (built : Built p) (noEvent : p.body.event = none)
    (representable : p.IsRepresentable) (expiration : p.body.ticks ≠ some 0) : p.body.KeptByWire lib where
  toIsRepresentable := representable.body
  event := by simp [noEvent]
  expiration := expiration
  offset := by
    intro evtOffset same
    cases built with
    | readNextMessageResponse seq cloudEvt => cases same; rfl
    | error made =>
      obtain ⟨_, _, rfl⟩ := Option.map_eq_some_iff.mp made
      cases same
    | _ => cases same
  notNull := by
    intro name propertyName propertyValue same
    cases built with
    | updatePluginConfigurationRequest seq pluginName propertyName propertyValue =>
      cases same
      exact ⟨rfl, rfl, rfl⟩
    | error made =>
      obtain ⟨_, _, rfl⟩ := Option.map_eq_some_iff.mp made
      cases same
    | _ => cases same

/-- **A builder's package without an event is read back exactly when its class is the one its command stands
for and its expiration is not zero.** -/
theorem mesh_package_reads_back_iff (lib : CloudEventLibrary D V) (p : Package (CloudEvent D V)) (built : Built p)
    (noEvent : p.body.event = none) (representable : p.IsRepresentable) :
    Package.deserialize lib (p.serialize lib) = some (p, []) ↔ ReadsBack p := by
  rw [Package.deserialize_serialize_iff lib representable]
  have kept : p.body.ticks ≠ some 0 → p.body.KeptByWire lib := built.keptByWire noEvent representable
  cases built with
  | heartBeatRequest seq => exact extract_package_iff (by decide) rfl
  | getAllBridge seq => exact extract_package_iff (by decide) rfl
  | addVPN seq vpn => exact extract_success_iff rfl (kept nofun)
  | addClient seq vpn clientId purposes => exact extract_success_iff rfl (kept nofun)
  | helloRequest seq userAgent => exact extract_hello_iff representable.body
  | getAllVpnsRequest seq => exact iff_of_false nofun fun back => back.vpns rfl
  | disconnectRequest seq clientId sessionId => exact extract_success_iff rfl (kept nofun)
  | subscribe seq groupId items sessionId => exact extract_success_iff rfl (kept nofun)
  | publishMessageRequest seq sessionId topicName cloudEvent => exact extract_success_iff rfl (kept nofun)
  | addBridgeRequest seq vpn urn port targetVpn targetClientId => exact extract_success_iff rfl (kept nofun)
  | readNextMessageRequest seq sessionId groupId => exact extract_success_iff rfl (kept nofun)
  | readTopicMessageRequest seq topic evtOffset => exact extract_success_iff rfl (kept nofun)
  | getAllPluginsRequest seq => exact iff_of_false nofun fun back => back.plugins rfl
  | enablePluginRequest seq pluginName => exact extract_success_iff rfl (kept nofun)
  | disablePluginRequest seq pluginName => exact extract_success_iff rfl (kept nofun)
  | getPluginConfigurationRequest seq pluginName => exact extract_success_iff rfl (kept nofun)
  | updatePluginConfigurationRequest seq pluginName propertyName propertyValue =>
    exact extract_success_iff rfl (kept nofun)
  | heartBeatResponse seq => exact extract_package_iff (by decide) rfl
  | helloResponse seq sessionId => exact extract_success_iff rfl (kept nofun)
  | client seq => exact extract_success_iff rfl (kept nofun)
  | getAllVpnsResponse seq vpns => exact extract_success_iff rfl (kept nofun)
  | subscription seq queueName => exact extract_success_iff rfl (kept nofun)
  | addBridgeResponse seq => exact extract_package_iff (by decide) rfl
  | publishMessageResponse seq => exact extract_package_iff (by decide) rfl
  | disconnectResponse seq => exact extract_package_iff (by decide) rfl
  | addVpn seq => exact extract_package_iff (by decide) rfl
  | getBridges seq servers => exact extract_success_iff rfl (kept nofun)
  | readNextMessageResponse seq cloudEvt => exact extract_success_iff rfl (kept nofun)
  | readTopicMessageResponse seq topic value evtOffset => exact extract_success_iff rfl (kept nofun)
  | getAllPluginsResponse seq plugins => exact extract_success_iff rfl (kept nofun)
  | enablePluginResponse seq => exact extract_package_iff (by decide) rfl
  | disablePluginResponse seq => exact extract_package_iff (by decide) rfl
  | getPluginConfigurationResponse seq records => exact extract_success_iff rfl (kept nofun)
  | updatePluginConfigurationResponse seq => exact iff_of_false nofun fun back => nomatch back.update rfl
  | error made => exact extract_error_iff made

/-- A request for a bridge is read back. -/
theorem bridge_request_reads_back :
    let p : Package (CloudEvent (List UInt8) String) :=
      PackageRequestBuilder.addBridge "0123456789" "default" "localhost" 4000 "target" "client"
    Package.deserialize .onTexts (p.serialize .onTexts) = some (p, []) :=
  (mesh_package_reads_back_iff .onTexts _ (.addBridgeRequest _ _ _ _ _ _) rfl
    ⟨by decide, by decide, by decide, by decide, by decide, nofun⟩).mpr
    ⟨nofun, nofun, nofun, nofun, by decide⟩

/-- The answer to an update of a plugin is written as the configuration of a plugin and read as neither. -/
theorem update_answer_loses_its_class :
    ¬ ∀ (lib : CloudEventLibrary (List UInt8) String) (p : Package (CloudEvent (List UInt8) String)), Built p →
      p.body.event = none → p.IsRepresentable → Package.deserialize lib (p.serialize lib) = some (p, []) := by
  intro readBack
  let p : Package (CloudEvent (List UInt8) String) := PackageResponseBuilder.updatePluginConfiguration "0123456789"
  have representable : p.IsRepresentable := ⟨by decide, by decide, by decide, by decide, by decide, nofun⟩
  have read := readBack .onTexts p (.updatePluginConfigurationResponse _) rfl representable
  rw [Package.deserialize_serialize_iff _ representable] at read
  exact nomatch read

/-! ## The answer to a refused request -/

/-- The commands a node has a handler for. -/
def messageHandlers : List Commands :=
  [.ADD_BRIDGE_REQUEST, .ADD_CLIENT_REQUEST, .ADD_VPN_REQUEST, .DISABLE_PLUGIN_REQUEST, .DISCONNECT_REQUEST,
    .ENABLE_PLUGIN_REQUEST, .GET_ALL_BRIDGE_VPN_REQUEST, .GET_ALL_PLUGINS_REQUEST, .GET_ALL_VPNS_REQUEST,
    .GET_PLUGIN_CONFIGURATION_REQUEST, .HEARTBEAT_REQUEST, .HELLO_REQUEST, .PUBLISH_MESSAGE_REQUEST,
    .READ_NEXT_MESSAGE_REQUEST, .READ_TOPIC_MESSAGE_REQUEST, .SUBSCRIBE_REQUEST, .UPDATE_PLUGIN_CONFIGURATION_REQUEST]

/-- The constructor of `Errors` is private: an error is a declared one or was read off a buffer. -/
def Errors.IsValue (error : Errors) : Prop :=
  error ∈ Errors.all ∨ ∃ buffer rest, Errors.deserialize buffer = some (error, rest)

theorem Errors.IsValue.ascii {error : Errors} (value : error.IsValue) : IsAscii error.code := by
  rcases value with declared | ⟨buffer, rest, read⟩
  · revert error
    decide
  · obtain ⟨code, _, text, made⟩ := Reader.bind_eq_some.mp read
    obtain ⟨rfl, -⟩ := Reader.pure_eq_some.mp made
    exact nextString_ascii text

/-- Every sequence number that is read is ASCII. -/
theorem Header.seq_ascii {buffer rest : List UInt8} {header : Header}
    (read : Header.deserialize buffer = some (header, rest)) : IsAscii header.seq := by
  obtain ⟨cmd, _, -, tail⟩ := Reader.bind_eq_some.mp read
  obtain ⟨status, _, -, tail⟩ := Reader.bind_eq_some.mp tail
  split at tail
  · obtain ⟨seq, _, text, made⟩ := Reader.bind_eq_some.mp tail
    obtain ⟨rfl, -⟩ := Reader.pure_eq_some.mp made
    exact nextString_ascii text
  · obtain ⟨error, _, -, tail⟩ := Reader.bind_eq_some.mp tail
    obtain ⟨seq, _, text, made⟩ := Reader.bind_eq_some.mp tail
    obtain ⟨rfl, -⟩ := Reader.pure_eq_some.mp made
    exact nextString_ascii text

theorem Package.seq_ascii {buffer rest : List UInt8} {p : Package (CloudEvent D V)}
    (read : Package.deserialize lib buffer = some (p, rest)) : IsAscii p.header.seq := by
  obtain ⟨_, _, -, tail⟩ := Reader.bind_eq_some.mp read
  obtain ⟨_, _, -, tail⟩ := Reader.bind_eq_some.mp tail
  obtain ⟨header, _, readHeader, tail⟩ := Reader.bind_eq_some.mp tail
  obtain ⟨body, _, -, made⟩ := Reader.bind_eq_some.mp tail
  obtain ⟨rfl, -⟩ := Reader.pure_eq_some.mp made
  exact Header.seq_ascii readHeader

/-- The error is made, and read as a package of the mapped command with the same error and number. -/
def Answered (lib : CloudEventLibrary D V) (command : Commands) (error : Errors) (seq : String) : Prop :=
  ∃ p q : Package (CloudEvent D V), ∃ rest,
    PackageResponseBuilder.error seq command error = some p ∧
    Package.deserialize lib (p.serialize lib) = some (q, rest) ∧
    Constants.mappingRequestToResponse.lookup command = some q.header.command ∧
    q.header.status = .FAIL ∧ q.header.error = some error ∧ q.header.seq = seq

/-- The commands whose error is not made, and those whose answer has a field the error lacks. -/
def Commands.withoutError : List Commands :=
  [.READ_NEXT_MESSAGE_REQUEST, .READ_TOPIC_MESSAGE_REQUEST, .GET_ALL_VPNS_REQUEST, .GET_ALL_BRIDGE_VPN_REQUEST,
    .GET_ALL_PLUGINS_REQUEST]

/-- An error is answered when the class of the answer can be read off nothing. -/
theorem answered_iff_extract {command response : Commands} {error : Errors} {seq : String}
    (mapped : Constants.mappingRequestToResponse.lookup command = some response) (code : IsText error.code)
    (text : IsText seq) :
    Answered lib command error seq ↔ ∃ read, Body.extract lib .FAIL response [] = some read := by
  let p : Package (CloudEvent D V) := ⟨⟨response, .FAIL, some error, seq, rfl⟩, .package⟩
  have made : PackageResponseBuilder.error seq command error = some p := by
    rw [PackageResponseBuilder.error, mapped, Option.map_some]
  have representable : p.IsRepresentable := by
    have status : IsInt HeaderStatus.FAIL.code := by decide
    have desc : IsText HeaderStatus.FAIL.desc := by decide
    refine ⟨status, ?_, Body.isRepresentable_package⟩
    simp only [p, Header.strings, List.forall_mem_cons, Option.map_some, Option.getD_some]
    exact ⟨desc, code, text, List.forall_mem_nil _⟩
  have read := Package.deserialize_serialize lib representable
  constructor
  · rintro ⟨p', q, rest, made', readBack, -⟩
    obtain rfl : p = p' := Option.some_inj.mp (made.symm.trans made')
    rw [read] at readBack
    obtain ⟨body, extracted, -⟩ := Option.map_eq_some_iff.mp readBack
    exact ⟨body, extracted⟩
  · rintro ⟨body, extracted⟩
    refine ⟨p, ⟨p.header, body.1⟩, body.2, made, ?_, mapped, rfl, rfl, rfl⟩
    rw [read]
    exact Option.map_eq_some_iff.mpr ⟨body, extracted, rfl⟩

/-- **A refused request is answered exactly when its error is made and its answer has no field that must be
there**, for an ASCII sequence number. -/
theorem refused_request_answered_iff (lib : CloudEventLibrary D V) (command : Commands)
    (handled : command ∈ messageHandlers) (error : Errors) (value : error.IsValue)
    (codeCount : IsCount error.code.length) (seq : String) (seqCount : IsCount seq.length) :
    Answered lib command error seq ↔ command ∉ Commands.withoutError ∧ IsAscii seq := by
  have ascii (answered : Answered lib command error seq) : IsAscii seq := by
    obtain ⟨p, q, rest, -, read, -, -, -, rfl⟩ := answered
    exact Package.seq_ascii read
  by_cases text : IsAscii seq
  · have extracted {response : Commands} (mapped : Constants.mappingRequestToResponse.lookup command = some response) :
        Answered lib command error seq ↔ ∃ read, Body.extract lib .FAIL response [] = some read :=
      answered_iff_extract mapped ⟨value.ascii, codeCount⟩ ⟨text, seqCount⟩
    have refused (listed : command ∈ Commands.withoutError) (not : ¬ Answered lib command error seq) :
        Answered lib command error seq ↔ command ∉ Commands.withoutError ∧ IsAscii seq :=
      iff_of_false not fun both => both.1 listed
    cases command
    -- No error is made.
    case READ_NEXT_MESSAGE_REQUEST => exact refused (by decide) fun ⟨_, _, _, made, _⟩ => nomatch made
    case READ_TOPIC_MESSAGE_REQUEST => exact refused (by decide) fun ⟨_, _, _, made, _⟩ => nomatch made
    -- The answer starts with the length of a list.
    case GET_ALL_VPNS_REQUEST => exact refused (by decide) fun answered => nomatch (extracted rfl).mp answered
    case GET_ALL_BRIDGE_VPN_REQUEST => exact refused (by decide) fun answered => nomatch (extracted rfl).mp answered
    case GET_ALL_PLUGINS_REQUEST => exact refused (by decide) fun answered => nomatch (extracted rfl).mp answered
    all_goals first
      | exact absurd handled (by decide)
      | exact (extracted rfl).trans (iff_of_true ⟨_, rfl⟩ ⟨by decide, text⟩)
  · exact iff_of_false (fun answered => text (ascii answered)) fun both => text both.2

/-- A refused session is answered. -/
theorem refused_hello_is_answered :
    Answered (CloudEventLibrary.onTexts) .HELLO_REQUEST ⟨"INVALID_CLIENT"⟩ "0123456789" :=
  (refused_request_answered_iff .onTexts .HELLO_REQUEST (by decide) ⟨"INVALID_CLIENT"⟩ (.inl (by decide)) (by decide)
    "0123456789" (by decide)).mpr ⟨by decide, by decide⟩

/-- The mapping has no answer to a request for the next message. -/
theorem refused_read_is_not_answered :
    ¬ ∀ (lib : CloudEventLibrary (List UInt8) String) (command : Commands), command ∈ messageHandlers →
      ∀ error : Errors, error.IsValue → IsCount error.code.length → ∀ seq : String, IsCount seq.length →
        Answered lib command error seq := by
  intro answered
  obtain ⟨_, _, _, made, _⟩ := answered .onTexts .READ_NEXT_MESSAGE_REQUEST (by decide) ⟨"INVALID_SESSION"⟩
    (.inl (by decide)) (by decide) "0123456789" (by decide)
  exact nomatch made

end

end FaasNet.EventMesh.Client
