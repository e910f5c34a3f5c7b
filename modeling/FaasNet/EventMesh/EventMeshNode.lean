import FaasNet.RaftConsensus.NodeHost

/-!
# Publishing a message on a node

`PublishMessageRequestHandler`, and what `EventMeshNode.HandlePackage` does with its result. The
value of a message, the base64 text of its event, is a type variable: nothing here looks at it.
-/

namespace FaasNet.EventMesh

open FaasNet.RaftConsensus

/-- `UserAgentPurpose`. -/
inductive UserAgentPurpose where
  | SUB
  | PUB
  deriving DecidableEq, Repr

/-- What `CheckSession` reads of a `ClientSession`. -/
structure ClientSession where
  purpose : UserAgentPurpose
  isActive : Bool
  deriving DecidableEq, Repr

/-- The `Errors` a publish is answered with. -/
inductive Errors where
  | INVALID_SESSION
  | UNAUTHORIZED_PUBLISH
  | NO_ACTIVE_SESSION
  | INTERNAL_ERROR
  deriving DecidableEq, Repr

/-- What a publish reads from outside the node: the answer of the session store, the random number,
the new GUID of the PEER entity, and the surroundings of a callback. -/
structure PublishEnv extends Env where
  clientSession : Option ClientSession
  rnd : Nat
  entityId : String

/-- `EventMeshPackageResult`, without the package, which is the answer SUCCESS. -/
inductive EventMeshPackageResult (V : Type*) where
  | sendResult
  | addPeer (termid : String) (logRecord : LogRecord V)

namespace PublishMessageRequestHandler

section
variable {V : Type*}

def checkSession (clientSession : Option ClientSession) : Except Errors Unit :=
  match clientSession with
  | none => .error .INVALID_SESSION
  | some session =>
    if session.purpose ≠ .PUB then .error .UNAUTHORIZED_PUBLISH
    else if session.isActive = false then .error .NO_ACTIVE_SESSION
    else .ok ()

def checkPeerExists (n : NodeHost V) (topicName : String) : Bool := (n.findPeer topicName).isSome

/-- `Random.Next(0, maxValue)`; it throws when `maxValue` is negative. -/
def next (rnd : Nat) (maxValue : Int) : Option Nat :=
  if maxValue < 0 then none else if maxValue = 0 then some 0 else some (rnd % maxValue.toNat)

def getRandomClusterNode (nodeOptions : ConsensusNodeOptions) (rnd : Nat) (nodes : List ClusterNode) :
    Option ClusterNode :=
  if nodes.length = 1 then nodes.head?
  else
    let nodes := nodes.filter fun n => n.port ≠ nodeOptions.exposedPort ∧ n.url ≠ nodeOptions.exposedUrl
    (next rnd (nodes.length - 1)).bind fun rndIndex => nodes[rndIndex]?

/-- `SendMessage`: the datagram it sends, or `none` when it throws. -/
def sendMessage (n : NodeHost V) (env : PublishEnv) (topic : String) (value : V) :
    Option (ClusterNode × ConsensusPackage V) :=
  (env.getAllNodes.bind (getRandomClusterNode n.nodeOptions env.rnd)).bind fun rndClusterNode =>
    if env.send 0 then some (rndClusterNode, ConsensusPackageRequestBuilder.appendEntry topic 0 value false)
    else none

/-- `Run`, with the errors `HandlePackage` turns its exceptions into. -/
def run (n : NodeHost V) (env : PublishEnv) (topic : String) (value : V) :
    Except Errors (EventMeshPackageResult V × Sent V) :=
  match checkSession env.clientSession with
  | .error error => .error error
  | .ok () =>
    if checkPeerExists n topic then
      match sendMessage n env topic value with
      | none => .error .INTERNAL_ERROR
      | some datagram => .ok (.sendResult, [datagram])
    else .ok (.addPeer topic ⟨1, value⟩, [])

end

end PublishMessageRequestHandler

/-- What a handled publish leaves behind: the node, what it sent to other nodes, and its answer. -/
structure Published (V : Type*) where
  node : NodeHost V
  sent : Sent V
  answer : Except Errors Unit

namespace EventMeshNode

section
variable {V : Type*}

/-- A node after `Start`, over the infos its store holds. -/
def start (nodeOptions : ConsensusNodeOptions) (peerOptions : ConsensusPeerOptions) (peerInfoStore : PeerInfoStore)
    (nodeStateStore : NodeStateStore) (env : Nat → Env) : NodeHost V :=
  NodeHost.runConsensusPeers ⟨nodeOptions, peerOptions, [], peerInfoStore, nodeStateStore⟩ env peerInfoStore.getAll

/-- The branch ADD_PEER of `HandlePackage`. -/
def handleAddPeer (json : PeerJson) (env : PublishEnv) (n : NodeHost V) (termid : String)
    (logRecord : LogRecord V) : NodeHost V :=
  let started := (n.addPeer json env.entityId termid).startPeer env.toEnv termid
  let peerHost := PeerHost.start n.nodeOptions n.peerOptions ⟨termid, 0, 0⟩ env.toEnv
  started.setPeer n.peers.length peerHost (peerHost.appendEntry logRecord)

/-- `HandlePackage` of a `PUBLISH_MESSAGE_REQUEST`. -/
def handlePublish (json : PeerJson) (n : NodeHost V) (env : PublishEnv) (topic : String) (value : V) :
    Published V :=
  match PublishMessageRequestHandler.run n env topic value with
  | .error error => ⟨n, [], .error error⟩
  | .ok (.sendResult, sent) => ⟨n, sent, .ok ()⟩
  | .ok (.addPeer termid logRecord, sent) => ⟨handleAddPeer json env n termid logRecord, sent, .ok ()⟩

/-- The outcomes of a publish. -/
inductive PublishEffect (json : PeerJson) (n : NodeHost V) (env : PublishEnv) (topic : String) (value : V) :
    Published V → Prop where
  | refused (error : Errors) : PublishEffect json n env topic value ⟨n, [], .error error⟩
  | sent (nodes : List ClusterNode) (target : ClusterNode) (hosted : topic ∈ n.termIds)
      (answer : env.getAllNodes = some nodes) (among : target ∈ nodes) :
      PublishEffect json n env topic value
        ⟨n, [(target, ConsensusPackageRequestBuilder.appendEntry topic 0 value false)], .ok ()⟩
  | created (unknown : topic ∉ n.termIds) :
      PublishEffect json n env topic value ⟨handleAddPeer json env n topic ⟨1, value⟩, [], .ok ()⟩

theorem getRandomClusterNode_mem {nodeOptions : ConsensusNodeOptions} {rnd : Nat} {nodes : List ClusterNode}
    {target : ClusterNode}
    (chosen : PublishMessageRequestHandler.getRandomClusterNode nodeOptions rnd nodes = some target) :
    target ∈ nodes := by
  unfold PublishMessageRequestHandler.getRandomClusterNode at chosen
  split at chosen
  · exact List.mem_of_mem_head? chosen
  · obtain ⟨rndIndex, _, found⟩ := Option.bind_eq_some_iff.mp chosen
    exact List.mem_of_mem_filter (List.mem_of_getElem? found)

/-- **Every publish has one of the listed effects.** -/
theorem publish_effect (json : PeerJson) (n : NodeHost V) (env : PublishEnv) (topic : String) (value : V) :
    PublishEffect json n env topic value (handlePublish json n env topic value) := by
  unfold handlePublish PublishMessageRequestHandler.run
  cases PublishMessageRequestHandler.checkSession env.clientSession with
  | error error => exact .refused error
  | ok =>
    dsimp only
    by_cases hosted : topic ∈ n.termIds
    · have peer : PublishMessageRequestHandler.checkPeerExists n topic = true := by
        rw [PublishMessageRequestHandler.checkPeerExists, Option.isSome_iff_ne_none]
        exact fun none => NodeHost.findPeer_eq_none.mp none hosted
      rw [if_pos peer]
      cases message : PublishMessageRequestHandler.sendMessage n env topic value with
      | none => exact .refused .INTERNAL_ERROR
      | some datagram =>
        obtain ⟨target, found, returned⟩ := Option.bind_eq_some_iff.mp message
        obtain ⟨nodes, answer, chosen⟩ := Option.bind_eq_some_iff.mp found
        obtain ⟨_, made⟩ := Option.ite_none_right_eq_some.mp returned
        obtain rfl := Option.some.inj made
        exact .sent nodes target hosted answer (getRandomClusterNode_mem chosen)
    · have peer : PublishMessageRequestHandler.checkPeerExists n topic = false := by
        rw [PublishMessageRequestHandler.checkPeerExists, NodeHost.findPeer_eq_none.mpr hosted]
        rfl
      rw [if_neg (by simp [peer])]
      exact .created hosted

end

end EventMeshNode

/-! ## The node a message is sent to -/

namespace PublishMessageRequestHandler

/-- The node itself, as it registers in the cluster. -/
def ownNode (nodeOptions : ConsensusNodeOptions) : ClusterNode := ⟨nodeOptions.exposedUrl, nodeOptions.exposedPort⟩

/-- Any random number chooses another member, and each of them is chosen for some number. -/
structure ChoosesAnother (nodeOptions : ConsensusNodeOptions) (nodes : List ClusterNode) : Prop where
  chooses : ∀ rnd, ∃ target ∈ nodes, target ≠ ownNode nodeOptions ∧
    getRandomClusterNode nodeOptions rnd nodes = some target
  reaches : ∀ target ∈ nodes, target ≠ ownNode nodeOptions →
    ∃ rnd, getRandomClusterNode nodeOptions rnd nodes = some target

/-- The members the filter of `GetRandomClusterNode` leaves: both fields differ from the node's own. -/
def farNodes (nodeOptions : ConsensusNodeOptions) (nodes : List ClusterNode) : List ClusterNode :=
  nodes.filter fun n => n.port ≠ nodeOptions.exposedPort ∧ n.url ≠ nodeOptions.exposedUrl

variable {nodeOptions : ConsensusNodeOptions} {nodes : List ClusterNode} {target : ClusterNode} {rnd : Nat}

theorem getRandomClusterNode_many (many : 2 ≤ nodes.length) :
    getRandomClusterNode nodeOptions rnd nodes =
      (next rnd ((farNodes nodeOptions nodes).length - 1)).bind fun rndIndex => (farNodes nodeOptions nodes)[rndIndex]? := by
  rw [getRandomClusterNode, if_neg (by omega)]
  rfl

/-- The upper bound is exclusive: the last of several is never drawn. -/
theorem next_eq_some {count rndIndex : Nat} (drawn : next rnd (count - 1) = some rndIndex) :
    rndIndex + 1 < count ∨ count = 1 ∧ rndIndex = 0 := by
  unfold next at drawn
  split at drawn
  · cases drawn
  · split at drawn
    · cases drawn
      right
      omega
    · left
      obtain rfl := Option.some.inj drawn
      have below : rnd % ((count : Int) - 1).toNat < ((count : Int) - 1).toNat := Nat.mod_lt _ (by omega)
      omega

theorem mem_farNodes : target ∈ farNodes nodeOptions nodes ↔
    target ∈ nodes ∧ target.port ≠ nodeOptions.exposedPort ∧ target.url ≠ nodeOptions.exposedUrl := by
  simp [farNodes]

theorem farNodes_ne (far : target ∈ farNodes nodeOptions nodes) : target ≠ ownNode nodeOptions := by
  rintro rfl
  exact (mem_farNodes.mp far).2.1 rfl

/-- The other members are one less than all. -/
theorem length_erase_ownNode (registered : ownNode nodeOptions ∈ nodes) :
    (nodes.erase (ownNode nodeOptions)).length + 1 = nodes.length := by
  have positive : 0 < nodes.length := List.length_pos_of_mem registered
  rw [List.length_erase_of_mem registered]
  omega

/-- If every other member can be chosen, there is one at most. -/
theorem ChoosesAnother.length_farNodes (chooses : ChoosesAnother nodeOptions nodes) (distinct : nodes.Nodup)
    (many : 2 ≤ nodes.length) : (farNodes nodeOptions nodes).length ≤ 1 := by
  by_contra several
  -- the last of the filtered members would have to be drawn
  obtain ⟨last, position⟩ : ∃ last, (farNodes nodeOptions nodes)[(farNodes nodeOptions nodes).length - 1]? = some last :=
    ⟨_, List.getElem?_eq_getElem (by omega)⟩
  have far : last ∈ farNodes nodeOptions nodes := List.mem_of_getElem? position
  obtain ⟨rnd, chosen⟩ := chooses.reaches last (mem_farNodes.mp far).1 (farNodes_ne far)
  rw [getRandomClusterNode_many many] at chosen
  obtain ⟨rndIndex, drawn, found⟩ := Option.bind_eq_some_iff.mp chosen
  have before := next_eq_some drawn
  have inside := (List.getElem?_eq_some_iff.mp found).1
  have same := (List.getElem?_inj inside (distinct.filter _)).mp (found.trans position.symm)
  omega

/-- **Another node is chosen, and any other can be,** exactly if there is one other node and it differs from this one in
both its URL and its port. -/
theorem choosesAnother_iff (distinct : nodes.Nodup) (registered : ownNode nodeOptions ∈ nodes) (many : 2 ≤ nodes.length) :
    ChoosesAnother nodeOptions nodes ↔ nodes.length = 2 ∧ ∀ other ∈ nodes, other ≠ ownNode nodeOptions →
      other.url ≠ nodeOptions.exposedUrl ∧ other.port ≠ nodeOptions.exposedPort := by
  have others := length_erase_ownNode registered
  constructor
  · intro chooses
    have all : nodes.erase (ownNode nodeOptions) ⊆ farNodes nodeOptions nodes := by
      intro other among
      obtain ⟨different, member⟩ := distinct.mem_erase_iff.mp among
      obtain ⟨rnd, chosen⟩ := chooses.reaches other member different
      rw [getRandomClusterNode_many many] at chosen
      obtain ⟨rndIndex, -, found⟩ := Option.bind_eq_some_iff.mp chosen
      exact List.mem_of_getElem? found
    have few := (List.subperm_of_subset (distinct.erase _) all).length_le
    have one := chooses.length_farNodes distinct many
    refine ⟨by omega, fun other member different => ?_⟩
    have far := mem_farNodes.mp (all (distinct.mem_erase_iff.mpr ⟨different, member⟩))
    exact ⟨far.2.2, far.2.1⟩
  · rintro ⟨two, far⟩
    obtain ⟨other, single⟩ : ∃ other, nodes.erase (ownNode nodeOptions) = [other] :=
      List.length_eq_one_iff.mp (by omega)
    have isOther {target : ClusterNode} : target ∈ nodes ∧ target ≠ ownNode nodeOptions ↔ target = other := by
      rw [and_comm, ← distinct.mem_erase_iff, single, List.mem_singleton]
    obtain ⟨member, different⟩ := isOther.mpr rfl
    have drawn (rnd : Nat) : getRandomClusterNode nodeOptions rnd nodes = some other := by
      have only : farNodes nodeOptions nodes = [other] := by
        refine List.perm_singleton.mp ((List.perm_ext_iff_of_nodup (distinct.filter _) (List.nodup_singleton other)).mpr ?_)
        intro target
        rw [List.mem_singleton, ← isOther]
        exact ⟨fun kept => ⟨(mem_farNodes.mp kept).1, farNodes_ne kept⟩,
          fun target => mem_farNodes.mpr ⟨target.1, (far _ target.1 target.2).symm⟩⟩
      rw [getRandomClusterNode_many many, only]
      rfl
    exact ⟨fun rnd => ⟨other, member, different, drawn rnd⟩,
      fun target member different => ⟨0, isOther.mp ⟨member, different⟩ ▸ drawn 0⟩⟩

/-- A node of another machine is chosen. -/
theorem choosesAnother_remote :
    ChoosesAnother (.localhost 4000) [⟨"localhost", 4000⟩, ⟨"remote", 4001⟩] :=
  (choosesAnother_iff (by decide) (by decide) (by decide)).mpr (by decide)

/-- Two nodes on one machine: the filter leaves nothing to draw from. -/
theorem not_choosesAnother_localhost :
    ¬ ChoosesAnother (.localhost 4000) [⟨"localhost", 4000⟩, ⟨"localhost", 4001⟩] := by
  intro chooses
  obtain ⟨target, -, -, chosen⟩ := chooses.chooses 0
  cases chosen

end PublishMessageRequestHandler

end FaasNet.EventMesh
