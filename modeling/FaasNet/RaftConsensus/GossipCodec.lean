import FaasNet.RaftConsensus.ConsensusCodec

/-!
# `GossipPackage`

The packages of `FaasNet.RaftConsensus.Client/Messages/Gossip`, their builders, and how they are
written and read. `GossipPackageResultBuilder.Sync` leaves the `EntityId` of a state `null`, so this
one string may be missing; `null` is written like the empty string.
-/

namespace FaasNet.RaftConsensus

open FaasNet.Lib WriteBufferContext ReadBufferContext

/-- `GossipCommands`. -/
inductive GossipCommands where
  | HEARTBEAT_REQUEST
  | HEARTBEAT_RESULT
  | SYNC_REQUEST
  | SYNC_RESULT
  | UPDATE_NODE_STATE_REQUEST
  | ADD_PEER_REQUEST
  | GET_CLUSTER_NODES_REQUEST
  | GET_CLUSTER_NODES_RESULT
  deriving DecidableEq, Repr

namespace GossipCommands

/-- The number of a command. -/
def code : GossipCommands → Int
  | HEARTBEAT_REQUEST => 0
  | HEARTBEAT_RESULT => 1
  | SYNC_REQUEST => 2
  | SYNC_RESULT => 3
  | UPDATE_NODE_STATE_REQUEST => 4
  | ADD_PEER_REQUEST => 5
  | GET_CLUSTER_NODES_REQUEST => 6
  | GET_CLUSTER_NODES_RESULT => 7

/-- All commands. -/
def all : List GossipCommands :=
  [HEARTBEAT_REQUEST, HEARTBEAT_RESULT, SYNC_REQUEST, SYNC_RESULT, UPDATE_NODE_STATE_REQUEST, ADD_PEER_REQUEST,
    GET_CLUSTER_NODES_REQUEST, GET_CLUSTER_NODES_RESULT]

/-- The command with a number. -/
def init (code : Int) : Option GossipCommands := all.find? (·.code = code)

/-- A command is read from its number. -/
def deserialize : Reader UInt8 GossipCommands := do
  let code ← nextInt
  Reader.require (init code)

theorem reads (command : GossipCommands) : Reads deserialize (writeInteger command.code) command := by
  have code : Reads nextInt (writeInteger command.code) command.code :=
    reads_integer (by cases command <;> decide)
  have found : init command.code = some command := by cases command <;> rfl
  exact code.lookup found

theorem pays : Pays deserialize fun _ => 4 :=
  pays_int.bind fun _ => Pays.require fun _ _ => by omega

end GossipCommands

/-! ## The packages -/

/-- `GossipHeader`; the command is the constructor of `GossipPackage`. -/
structure GossipHeader where
  sourceUrl : String
  sourcePort : Int
  deriving DecidableEq, Repr

/-- A version of a type. -/
structure GossipState where
  entityType : String
  entityVersion : Int
  deriving DecidableEq, Repr

/-- A version of a type with its value. -/
structure GossipStateResult where
  entityType : String
  entityId : Option String
  entityVersion : Int
  value : String
  deriving DecidableEq, Repr

/-- `GossipPackage`, one constructor for each command of `GossipCommands`. A `ClusterNodeResult` is an
address. -/
inductive GossipPackage where
  | heartbeatRequest (header : GossipHeader)
  | heartbeatResult (header : GossipHeader) (states : List GossipState)
  | syncStateRequest (header : GossipHeader) (states : List GossipState)
  | syncStateResult (header : GossipHeader) (states : List GossipStateResult)
  | updateNodeStateRequest (header : GossipHeader) (entityType entityId value : String)
  | addPeerRequest (header : GossipHeader) (termId : String)
  | getClusterNodesRequest (header : GossipHeader)
  | getClusterNodesResult (header : GossipHeader) (clusterNodes : List ClusterNode)
  deriving DecidableEq, Repr

/-! ## `GossipPackageRequestBuilder` and `GossipPackageResultBuilder`

A dictionary is the list of its pairs. -/

namespace GossipPackageRequestBuilder

/-- A heartbeat. -/
def heartbeat (source : ClusterNode) : GossipPackage := .heartbeatRequest ⟨source.url, source.port⟩

/-- States are asked for. -/
def sync (source : ClusterNode) (states : List (String × Int)) : GossipPackage :=
  .syncStateRequest ⟨source.url, source.port⟩ (states.map fun kvp => ⟨kvp.1, kvp.2⟩)

/-- An entity gets a new value. -/
def updateNodeState (source : ClusterNode) (entityType entityId value : String) : GossipPackage :=
  .updateNodeStateRequest ⟨source.url, source.port⟩ entityType entityId value

/-- A topic is added. -/
def addPeer (termId : String) : GossipPackage := .addPeerRequest ⟨"", 0⟩ termId

/-- The nodes of the cluster are asked for. -/
def getClusterNodes : GossipPackage := .getClusterNodesRequest ⟨"", 0⟩

end GossipPackageRequestBuilder

namespace GossipPackageResultBuilder

/-- The answer to a heartbeat. -/
def heartbeat (source : ClusterNode) (states : List (String × Int)) : GossipPackage :=
  .heartbeatResult ⟨source.url, source.port⟩ (states.map fun kvp => ⟨kvp.1, kvp.2⟩)

/-- The states that were asked for. -/
def sync (source : ClusterNode) (states : List (String × Int × String)) : GossipPackage :=
  .syncStateResult ⟨source.url, source.port⟩ (states.map fun kvp => ⟨kvp.1, none, kvp.2.1, kvp.2.2⟩)

/-- The nodes of the cluster. -/
def getClusterNodes (source : ClusterNode) (clusterNodes : List ClusterNode) : GossipPackage :=
  .getClusterNodesResult ⟨source.url, source.port⟩ clusterNodes

end GossipPackageResultBuilder

/-! ## Writing and reading -/

namespace GossipHeader

/-- A header is written with its command. -/
def serialize (command : GossipCommands) (header : GossipHeader) : List UInt8 :=
  writeInteger command.code ++ writeString header.sourceUrl ++ writeInteger header.sourcePort

/-- A header is read with its command. -/
def deserialize : Reader UInt8 (GossipCommands × GossipHeader) := do
  let cmd ← GossipCommands.deserialize
  let sourceUrl ← nextString
  let sourcePort ← nextInt
  pure (cmd, ⟨sourceUrl, sourcePort⟩)

theorem reads (command : GossipCommands) {header : GossipHeader} (sourceUrl : IsText header.sourceUrl)
    (sourcePort : IsInt header.sourcePort) : Reads deserialize (header.serialize command) (command, header) := by
  simp only [serialize, List.append_assoc]
  exact command.reads.bind <| (reads_string sourceUrl).bind (reads_integer sourcePort).map

theorem pays : Pays deserialize fun h => h.2.sourceUrl.length := by
  refine GossipCommands.pays.bind fun _ => pays_string.bind fun _ => pays_int.bind fun _ => Pays.pure ?_
  simp

end GossipHeader

namespace GossipState

/-- A state is written. -/
def serialize (state : GossipState) : List UInt8 :=
  writeString state.entityType ++ writeInteger state.entityVersion

/-- A state is read. -/
def deserialize : Reader UInt8 GossipState := do
  let entityType ← nextString
  let entityVersion ← nextInt
  pure ⟨entityType, entityVersion⟩

/-- The type is ASCII and the version an `int`. -/
structure IsRepresentable (state : GossipState) : Prop where
  entityType : IsText state.entityType
  entityVersion : IsInt state.entityVersion

theorem reads {state : GossipState} (representable : state.IsRepresentable) :
    Reads deserialize state.serialize state :=
  (reads_string representable.entityType).bind (reads_integer representable.entityVersion).map

/-- The characters of a state. -/
def characters (state : GossipState) : Nat := state.entityType.length

theorem pays : Pays deserialize fun state => state.characters + 1 := by
  refine pays_string.bind fun _ => pays_int.bind fun _ => Pays.pure ?_
  simp only [characters]
  omega

end GossipState

namespace GossipStateResult

/-- A state is written with its value. -/
def serialize (state : GossipStateResult) : List UInt8 :=
  writeString state.entityType ++ writeString (state.entityId.getD "") ++ writeInteger state.entityVersion
    ++ writeString state.value

/-- A state is read with its value. -/
def deserialize : Reader UInt8 GossipStateResult := do
  let entityType ← nextString
  let entityId ← nextString
  let entityVersion ← nextInt
  let value ← nextString
  pure ⟨entityType, some entityId, entityVersion, value⟩

/-- The texts and the number can be written. -/
structure IsRepresentable (state : GossipStateResult) : Prop where
  entityType : IsText state.entityType
  entityId : ∀ id ∈ state.entityId, IsText id
  entityVersion : IsInt state.entityVersion
  value : IsText state.value

/-- The state as it arrives: a missing id is the empty string. -/
def received (state : GossipStateResult) : GossipStateResult := { state with entityId := some (state.entityId.getD "") }

theorem reads {state : GossipStateResult} (representable : state.IsRepresentable) :
    Reads deserialize state.serialize state.received := by
  have entityId : IsText (state.entityId.getD "") := by
    cases found : state.entityId with
    | none => decide
    | some id => exact representable.entityId id found
  simp only [serialize, List.append_assoc]
  exact (reads_string representable.entityType).bind <| (reads_string entityId).bind <|
    (reads_integer representable.entityVersion).bind (reads_string representable.value).map

/-- The characters of a state with its value. -/
def characters (state : GossipStateResult) : Nat :=
  state.entityType.length + (state.entityId.getD "").length + state.value.length

theorem pays : Pays deserialize fun state => state.characters + 1 := by
  refine pays_string.bind fun _ => pays_string.bind fun _ => pays_int.bind fun _ => pays_string.bind fun _ =>
    Pays.pure ?_
  simp only [characters, Option.getD_some]
  omega

end GossipStateResult

namespace ClusterNode

/-- An address is written. -/
def serialize (node : ClusterNode) : List UInt8 := writeString node.url ++ writeInteger node.port

/-- An address is read. -/
def extract : Reader UInt8 ClusterNode := do
  let url ← nextString
  let port ← nextInt
  pure ⟨url, port⟩

/-- The texts and the number can be written. -/
structure IsRepresentable (node : ClusterNode) : Prop where
  url : IsText node.url
  port : IsInt node.port

theorem reads {node : ClusterNode} (representable : node.IsRepresentable) : Reads extract node.serialize node :=
  (reads_string representable.url).bind (reads_integer representable.port).map

/-- The characters of an address. -/
def characters (node : ClusterNode) : Nat := node.url.length

theorem pays : Pays extract fun node => node.characters + 1 := by
  refine pays_string.bind fun _ => pays_int.bind fun _ => Pays.pure ?_
  simp only [characters]
  omega

end ClusterNode

namespace GossipPackage

/-- The text that a package begins with. -/
def magicCode : String := "Gossip"

/-- The version of the protocol. -/
def protocolVersion : String := "0000"

/-- Every package has a header. -/
def header : GossipPackage → GossipHeader
  | heartbeatRequest header => header
  | heartbeatResult header _ => header
  | syncStateRequest header _ => header
  | syncStateResult header _ => header
  | updateNodeStateRequest header _ _ _ => header
  | addPeerRequest header _ => header
  | getClusterNodesRequest header => header
  | getClusterNodesResult header _ => header

/-- The command of a package. -/
def command : GossipPackage → GossipCommands
  | heartbeatRequest _ => .HEARTBEAT_REQUEST
  | heartbeatResult _ _ => .HEARTBEAT_RESULT
  | syncStateRequest _ _ => .SYNC_REQUEST
  | syncStateResult _ _ => .SYNC_RESULT
  | updateNodeStateRequest _ _ _ _ => .UPDATE_NODE_STATE_REQUEST
  | addPeerRequest _ _ => .ADD_PEER_REQUEST
  | getClusterNodesRequest _ => .GET_CLUSTER_NODES_REQUEST
  | getClusterNodesResult _ _ => .GET_CLUSTER_NODES_RESULT

/-- What a class writes after the header. -/
def serializeFields : GossipPackage → List UInt8
  | heartbeatResult _ states => writeMany GossipState.serialize states
  | syncStateRequest _ states => writeMany GossipState.serialize states
  | syncStateResult _ states => writeMany GossipStateResult.serialize states
  | updateNodeStateRequest _ entityType entityId value =>
    writeString entityType ++ writeString entityId ++ writeString value
  | addPeerRequest _ termId => writeString termId
  | getClusterNodesResult _ clusterNodes => writeMany ClusterNode.serialize clusterNodes
  | heartbeatRequest _ => []
  | getClusterNodesRequest _ => []

/-- A package is written behind the texts of the protocol. -/
def serialize (p : GossipPackage) : List UInt8 :=
  writeString magicCode ++ writeString protocolVersion ++ p.header.serialize p.command ++ p.serializeFields

/-- `Extract` of the class the command stands for. -/
def extract (header : GossipHeader) : GossipCommands → Reader UInt8 GossipPackage
  | .HEARTBEAT_REQUEST => pure (heartbeatRequest header)
  | .GET_CLUSTER_NODES_REQUEST => pure (getClusterNodesRequest header)
  | .GET_CLUSTER_NODES_RESULT => do
    let clusterNodes ← nextMany ClusterNode.extract
    pure (getClusterNodesResult header clusterNodes)
  | .HEARTBEAT_RESULT => do
    let states ← nextMany GossipState.deserialize
    pure (heartbeatResult header states)
  | .SYNC_REQUEST => do
    let states ← nextMany GossipState.deserialize
    pure (syncStateRequest header states)
  | .SYNC_RESULT => do
    let states ← nextMany GossipStateResult.deserialize
    pure (syncStateResult header states)
  | .UPDATE_NODE_STATE_REQUEST => do
    let entityType ← nextString
    let entityId ← nextString
    let value ← nextString
    pure (updateNodeStateRequest header entityType entityId value)
  | .ADD_PEER_REQUEST => do
    let termId ← nextString
    pure (addPeerRequest header termId)

/-- A package is read if its first texts are those of the protocol. -/
def deserialize : Reader UInt8 (Option GossipPackage) := do
  let magic ← nextString
  let version ← nextString
  if version ≠ protocolVersion ∨ magic ≠ magicCode then pure none
  else do
    let (cmd, header) ← GossipHeader.deserialize
    let package ← extract header cmd
    pure (some package)

/-! ## Reading a package back -/

/-- The fields of a package can be written. -/
def FieldsRepresentable : GossipPackage → Prop
  | heartbeatRequest _ => True
  | heartbeatResult _ states => IsCount states.length ∧ ∀ state ∈ states, state.IsRepresentable
  | syncStateRequest _ states => IsCount states.length ∧ ∀ state ∈ states, state.IsRepresentable
  | syncStateResult _ states => IsCount states.length ∧ ∀ state ∈ states, state.IsRepresentable
  | updateNodeStateRequest _ entityType entityId value => IsText entityType ∧ IsText entityId ∧ IsText value
  | addPeerRequest _ termId => IsText termId
  | getClusterNodesRequest _ => True
  | getClusterNodesResult _ clusterNodes =>
    IsCount clusterNodes.length ∧ ∀ node ∈ clusterNodes, node.IsRepresentable

/-- The values of a package are those the source's types have, and its strings are ASCII. -/
structure IsRepresentable (p : GossipPackage) : Prop where
  sourceUrl : IsText p.header.sourceUrl
  sourcePort : IsInt p.header.sourcePort
  fields : p.FieldsRepresentable

/-- No string of a package is `null`. -/
def NoNull : GossipPackage → Prop
  | syncStateResult _ states => ∀ state ∈ states, state.entityId ≠ none
  | _ => True

/-- The package as it arrives. -/
def received : GossipPackage → GossipPackage
  | syncStateResult header states => syncStateResult header (states.map GossipStateResult.received)
  | p => p

/-- A package without missing texts arrives as it was sent. -/
theorem received_of_noNull {p : GossipPackage} (noNull : p.NoNull) : p.received = p := by
  cases p with
  | syncStateResult header states =>
    have same : ∀ state ∈ states, state.received = id state := by
      intro state member
      obtain ⟨entityType, entityId, entityVersion, value⟩ := state
      obtain ⟨id, rfl⟩ := Option.ne_none_iff_exists'.mp (noNull _ member)
      rfl
    rw [received, List.map_congr_left same, List.map_id]
  | _ => rfl

/-- The fields of a package are read back. -/
theorem reads_extract {p : GossipPackage} (representable : p.IsRepresentable) :
    Reads (extract p.header p.command) p.serializeFields p.received := by
  have fields := representable.fields
  cases p with
  | heartbeatRequest header => exact Reads.pure _
  | heartbeatResult header states =>
    exact (reads_many fields.1 fun s member => GossipState.reads (fields.2 s member)).map
  | syncStateRequest header states =>
    exact (reads_many fields.1 fun s member => GossipState.reads (fields.2 s member)).map
  | syncStateResult header states =>
    exact (reads_many_as fields.1 fun s member => GossipStateResult.reads (fields.2 s member)).map
  | updateNodeStateRequest header entityType entityId value =>
    simp only [serializeFields, List.append_assoc]
    exact (reads_string fields.1).bind <| (reads_string fields.2.1).bind (reads_string fields.2.2).map
  | addPeerRequest header termId => exact (reads_string fields).map
  | getClusterNodesRequest header => exact Reads.pure _
  | getClusterNodesResult header clusterNodes =>
    exact (reads_many fields.1 fun node member => ClusterNode.reads (fields.2 node member)).map

/-- A package is read as the one that arrives, and what follows it is left in the buffer. -/
theorem reads_received {p : GossipPackage} (representable : p.IsRepresentable) :
    Reads deserialize p.serialize (some p.received) := by
  have magic : Reads nextString (writeString magicCode) magicCode := reads_string (by decide)
  have version : Reads nextString (writeString protocolVersion) protocolVersion := reads_string (by decide)
  have header := GossipHeader.reads p.command representable.sourceUrl representable.sourcePort
  simp only [serialize, List.append_assoc]
  exact magic.bind <| version.bind <| header.bind (reads_extract representable).map

/-! ## What a buffer can be read as -/

/-- The characters of all strings a class adds to the header. -/
def fieldCharacters : GossipPackage → Nat
  | heartbeatRequest _ => 0
  | heartbeatResult _ states => (states.map GossipState.characters).sum
  | syncStateRequest _ states => (states.map GossipState.characters).sum
  | syncStateResult _ states => (states.map GossipStateResult.characters).sum
  | updateNodeStateRequest _ entityType entityId value => entityType.length + entityId.length + value.length
  | addPeerRequest _ termId => termId.length
  | getClusterNodesRequest _ => 0
  | getClusterNodesResult _ clusterNodes => (clusterNodes.map ClusterNode.characters).sum

/-- The characters of all strings of a package. -/
def characters (p : GossipPackage) : Nat := p.header.sourceUrl.length + p.fieldCharacters

/-- The number of elements of the list of a package. -/
def elements : GossipPackage → Nat
  | heartbeatResult _ states => states.length
  | syncStateRequest _ states => states.length
  | syncStateResult _ states => states.length
  | getClusterNodesResult _ clusterNodes => clusterNodes.length
  | _ => 0

/-- The fields of a package take what the header has not taken. -/
theorem pays_extract (header : GossipHeader) (cmd : GossipCommands) :
    Pays (extract header cmd) fun p => p.characters + p.elements - header.sourceUrl.length := by
  cases cmd with
  | HEARTBEAT_REQUEST => exact Pays.pure (by simp [characters, fieldCharacters, elements, GossipPackage.header])
  | GET_CLUSTER_NODES_REQUEST => exact Pays.pure (by simp [characters, fieldCharacters, elements, GossipPackage.header])
  | GET_CLUSTER_NODES_RESULT =>
    refine (pays_elements ClusterNode.pays).bind fun _ => Pays.pure ?_
    simp only [characters, fieldCharacters, elements, GossipPackage.header]
    omega
  | HEARTBEAT_RESULT =>
    refine (pays_elements GossipState.pays).bind fun _ => Pays.pure ?_
    simp only [characters, fieldCharacters, elements, GossipPackage.header]
    omega
  | SYNC_REQUEST =>
    refine (pays_elements GossipState.pays).bind fun _ => Pays.pure ?_
    simp only [characters, fieldCharacters, elements, GossipPackage.header]
    omega
  | SYNC_RESULT =>
    refine (pays_elements GossipStateResult.pays).bind fun _ => Pays.pure ?_
    simp only [characters, fieldCharacters, elements, GossipPackage.header]
    omega
  | UPDATE_NODE_STATE_REQUEST =>
    refine pays_string.bind fun _ => pays_string.bind fun _ => pays_string.bind fun _ => Pays.pure ?_
    simp only [characters, fieldCharacters, elements, GossipPackage.header]
    omega
  | ADD_PEER_REQUEST =>
    refine pays_string.bind fun _ => Pays.pure ?_
    simp only [characters, fieldCharacters, elements, GossipPackage.header]
    omega

theorem pays : Pays deserialize fun p => (p.map fun p => p.characters + p.elements).getD 0 := by
  refine pays_string.bind fun magic => pays_string.bind fun version => ?_
  split
  · exact Pays.pure (by simp)
  · refine GossipHeader.pays.bind fun ⟨cmd, header⟩ => (pays_extract header cmd).bind fun p => Pays.pure ?_
    simp
    omega

end GossipPackage

/-! ## Both families -/

/-- **Packages are read back.** A consensus or gossip package of any class, with ASCII strings none of
which is `null`, is read back with its class, its header and its fields, and no byte after it is
taken. -/
theorem packages_read_back :
    (∀ p : ConsensusPackage String, p.IsRepresentable →
      ∀ rest, ConsensusPackage.deserialize (p.serialize ++ rest) = some (some p, rest)) ∧
    ∀ p : GossipPackage, p.IsRepresentable → p.NoNull →
      ∀ rest, GossipPackage.deserialize (p.serialize ++ rest) = some (some p, rest) := by
  refine ⟨fun p representable => ConsensusPackage.reads representable, fun p representable noNull => ?_⟩
  have read := GossipPackage.reads_received representable
  rwa [GossipPackage.received_of_noNull noNull] at read

/-- A vote with the lowest term index, and two states, one of them without a value. -/
theorem packages_read_back_extreme :
    ConsensusPackage.deserialize
        ((ConsensusPackageResultBuilder.vote ⟨"localhost", -1⟩ "topic" (-0x8000000000000000) true).serialize ++ [7]) =
      some (some (ConsensusPackageResultBuilder.vote ⟨"localhost", -1⟩ "topic" (-0x8000000000000000) true), [7]) ∧
    GossipPackage.deserialize
        ((GossipPackage.syncStateResult ⟨"localhost", 4000⟩
          [⟨"VPN", some "id", 0x7FFFFFFF, "value"⟩, ⟨"CLIENT", some "", -0x80000000, ""⟩]).serialize ++ [0, 255]) =
      some (some (GossipPackage.syncStateResult ⟨"localhost", 4000⟩
          [⟨"VPN", some "id", 0x7FFFFFFF, "value"⟩, ⟨"CLIENT", some "", -0x80000000, ""⟩]), [0, 255]) := by
  constructor
  · refine packages_read_back.1 _ ⟨?_, by decide, by decide⟩ _
    decide
  · apply packages_read_back.2
    · refine ⟨by decide, by decide, by decide, ?_⟩
      intro state member
      rcases List.mem_pair.mp member with rfl | rfl
      · exact ⟨by decide, by simp [show IsText "id" by decide], by decide, by decide⟩
      · exact ⟨by decide, by simp [show IsText "" by decide], by decide, by decide⟩
    · simp [GossipPackage.NoNull]

end FaasNet.RaftConsensus
