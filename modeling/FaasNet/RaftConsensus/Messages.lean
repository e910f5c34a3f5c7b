import Mathlib.Data.Int.Order.Basic

/-!
# Models and packages of the consensus protocol

The records of `FaasNet.RaftConsensus.Core/Models` and the packages of
`FaasNet.RaftConsensus.Client/Messages/Consensus`. `long` and `int` are `Int`. The value of a log
record is a `string` in the source; no handler looks at it, so it is a type variable `V` here.
-/

namespace FaasNet.RaftConsensus

/-- `PeerStates`. -/
inductive PeerStates where
  | FOLLOWER
  | CANDIDATE
  | LEADER
  deriving DecidableEq, Repr

/-- `ClusterNode`: an address a package can be sent to. -/
structure ClusterNode where
  url : String
  port : Int
  deriving DecidableEq, Repr

/-- `PeerInfo`. -/
structure PeerInfo where
  termId : String
  confirmedTermIndex : Int := 0
  termIndex : Int := 0
  deriving DecidableEq, Repr

namespace PeerInfo

/-- One more is confirmed, and this is the term. -/
def upgrade (p : PeerInfo) : PeerInfo :=
  { p with confirmedTermIndex := p.confirmedTermIndex + 1, termIndex := p.confirmedTermIndex + 1 }

/-- The term is set back to what is confirmed. -/
def reset (p : PeerInfo) : PeerInfo :=
  { p with termIndex := p.confirmedTermIndex }

/-- The term is the one after what is confirmed. -/
def increment (p : PeerInfo) : PeerInfo :=
  { p with termIndex := p.confirmedTermIndex + 1 }

section
variable (p : PeerInfo)

@[simp] theorem upgrade_termId : p.upgrade.termId = p.termId := rfl
@[simp] theorem upgrade_confirmed : p.upgrade.confirmedTermIndex = p.confirmedTermIndex + 1 := rfl
@[simp] theorem upgrade_termIndex : p.upgrade.termIndex = p.confirmedTermIndex + 1 := rfl
@[simp] theorem reset_termId : p.reset.termId = p.termId := rfl
@[simp] theorem reset_confirmed : p.reset.confirmedTermIndex = p.confirmedTermIndex := rfl
@[simp] theorem reset_termIndex : p.reset.termIndex = p.confirmedTermIndex := rfl
@[simp] theorem increment_termId : p.increment.termId = p.termId := rfl
@[simp] theorem increment_confirmed : p.increment.confirmedTermIndex = p.confirmedTermIndex := rfl
@[simp] theorem increment_termIndex : p.increment.termIndex = p.confirmedTermIndex + 1 := rfl

end

end PeerInfo

/-- `LogRecord`, without the insertion date, which nothing reads. -/
structure LogRecord (V : Type*) where
  index : Int
  value : V
  deriving DecidableEq, Repr

/-- `ConsensusHeader`; the command is the constructor of `ConsensusPackage`. -/
structure ConsensusHeader where
  termId : String
  termIndex : Int
  sourceUrl : String
  sourcePort : Int
  deriving DecidableEq, Repr

/-- Where the answer to a package goes. -/
def ConsensusHeader.source (header : ConsensusHeader) : ClusterNode :=
  ⟨header.sourceUrl, header.sourcePort⟩

/-- `VoteResult`. -/
structure VoteResult where
  header : ConsensusHeader
  voteGranted : Bool
  deriving DecidableEq, Repr

/-- `AppendEntryRequest`. -/
structure AppendEntryRequest (V : Type*) where
  header : ConsensusHeader
  value : V
  isProxified : Bool
  deriving DecidableEq, Repr

/-- `ConsensusPackage`, one constructor for each command of `ConsensusCommands`. -/
inductive ConsensusPackage (V : Type*) where
  | leaderHeartbeatRequest (header : ConsensusHeader)
  | voteRequest (header : ConsensusHeader)
  | voteResult (result : VoteResult)
  | appendEntryRequest (request : AppendEntryRequest V)
  | leaderHeartbeatResult (header : ConsensusHeader)
  deriving DecidableEq, Repr

namespace ConsensusPackage
variable {V : Type*}

/-- Every package has a header. -/
def header : ConsensusPackage V → ConsensusHeader
  | leaderHeartbeatRequest header => header
  | voteRequest header => header
  | voteResult result => result.header
  | appendEntryRequest request => request.header
  | leaderHeartbeatResult header => header

/-- The values of the client requests a package carries: one for an `APPEND_ENTRY_REQUEST` that is
not proxified, none for any other package. -/
def clientValues : ConsensusPackage V → List V
  | appendEntryRequest request => if request.isProxified then [] else [request.value]
  | _ => []

end ConsensusPackage

/-! ## `ConsensusPackageRequestBuilder` and `ConsensusPackageResultBuilder` -/

namespace ConsensusPackageRequestBuilder
variable {V : Type*}

/-- The heartbeat of a leader. -/
def leaderHeartbeat (node : ClusterNode) (termId : String) (termIndex : Int) : ConsensusPackage V :=
  .leaderHeartbeatRequest ⟨termId, termIndex, node.url, node.port⟩

/-- A request for votes. -/
def vote (node : ClusterNode) (termId : String) (termIndex : Int) : ConsensusPackage V :=
  .voteRequest ⟨termId, termIndex, node.url, node.port⟩

/-- A record to be appended. -/
def appendEntry (termId : String) (termIndex : Int) (value : V) (isProxified : Bool) :
    ConsensusPackage V :=
  .appendEntryRequest ⟨⟨termId, termIndex, "", 0⟩, value, isProxified⟩

end ConsensusPackageRequestBuilder

namespace ConsensusPackageResultBuilder
variable {V : Type*}

/-- The answer to a request for votes. -/
def vote (node : ClusterNode) (termId : String) (termIndex : Int) (voteGranted : Bool) :
    ConsensusPackage V :=
  .voteResult ⟨⟨termId, termIndex, node.url, node.port⟩, voteGranted⟩

/-- The answer to a heartbeat. -/
def leaderHeartbeat (node : ClusterNode) (termId : String) (termIndex : Int) : ConsensusPackage V :=
  .leaderHeartbeatResult ⟨termId, termIndex, node.url, node.port⟩

end ConsensusPackageResultBuilder

end FaasNet.RaftConsensus
