import FaasNet.RaftConsensus.BufferContext
import FaasNet.RaftConsensus.Messages

/-!
# `ConsensusPackage.Serialize` and `ConsensusPackage.Deserialize`

A package is the magic code, the version, the header and what its class adds. The value of an entry
is a `string` here. What is read may be `null`, for a datagram of another protocol; an unknown
command throws.
-/

namespace FaasNet.RaftConsensus

open FaasNet.Lib WriteBufferContext ReadBufferContext

/-- `ConsensusCommands`. -/
inductive ConsensusCommands where
  | LEADER_HEARTBEAT_REQUEST
  | VOTE_REQUEST
  | VOTE_RESULT
  | APPEND_ENTRY_REQUEST
  | LEADER_HEARTBEAT_RESULT
  deriving DecidableEq, Repr

namespace ConsensusCommands

/-- The number of a command. -/
def code : ConsensusCommands → Int
  | LEADER_HEARTBEAT_REQUEST => 0
  | VOTE_REQUEST => 1
  | VOTE_RESULT => 2
  | APPEND_ENTRY_REQUEST => 3
  | LEADER_HEARTBEAT_RESULT => 4

/-- All commands. -/
def all : List ConsensusCommands :=
  [LEADER_HEARTBEAT_REQUEST, VOTE_REQUEST, VOTE_RESULT, APPEND_ENTRY_REQUEST, LEADER_HEARTBEAT_RESULT]

/-- `Init`: the command of a code; `Single` throws when there is none. -/
def init (code : Int) : Option ConsensusCommands := all.find? (·.code = code)

/-- A command is read from its number. -/
def deserialize : Reader UInt8 ConsensusCommands := do
  let code ← nextInt
  Reader.require (init code)

theorem reads (command : ConsensusCommands) : Reads deserialize (writeInteger command.code) command := by
  have code : Reads nextInt (writeInteger command.code) command.code :=
    reads_integer (by cases command <;> decide)
  have found : init command.code = some command := by cases command <;> rfl
  exact code.lookup found

theorem pays : Pays deserialize fun _ => 4 :=
  pays_int.bind fun _ => Pays.require fun _ _ => by omega

end ConsensusCommands

namespace ConsensusHeader

/-- A header is written with its command. -/
def serialize (command : ConsensusCommands) (header : ConsensusHeader) : List UInt8 :=
  writeInteger command.code ++ writeString header.termId ++ writeLong header.termIndex
    ++ writeString header.sourceUrl ++ writeInteger header.sourcePort

/-- A header is read with its command. -/
def deserialize : Reader UInt8 (ConsensusCommands × ConsensusHeader) := do
  let cmd ← ConsensusCommands.deserialize
  let termId ← nextString
  let termIndex ← nextLong
  let sourceUrl ← nextString
  let sourcePort ← nextInt
  pure (cmd, ⟨termId, termIndex, sourceUrl, sourcePort⟩)

theorem reads (command : ConsensusCommands) {header : ConsensusHeader} (termId : IsText header.termId)
    (termIndex : IsLong header.termIndex) (sourceUrl : IsText header.sourceUrl) (sourcePort : IsInt header.sourcePort) :
    Reads deserialize (header.serialize command) (command, header) := by
  simp only [serialize, List.append_assoc]
  exact command.reads.bind <| (reads_string termId).bind <| (reads_long termIndex).bind <|
    (reads_string sourceUrl).bind (reads_integer sourcePort).map

theorem pays : Pays deserialize fun h => h.2.termId.length + h.2.sourceUrl.length := by
  refine ConsensusCommands.pays.bind fun _ => pays_string.bind fun _ => pays_long.bind fun _ =>
    pays_string.bind fun _ => pays_int.bind fun _ => Pays.pure ?_
  simp
  omega

end ConsensusHeader

namespace ConsensusPackage

/-- The text that a package begins with. -/
def magicCode : String := "RaftConsensus"

/-- The version of the protocol. -/
def protocolVersion : String := "0000"

/-- The command of a package. -/
def command : ConsensusPackage String → ConsensusCommands
  | leaderHeartbeatRequest _ => .LEADER_HEARTBEAT_REQUEST
  | voteRequest _ => .VOTE_REQUEST
  | voteResult _ => .VOTE_RESULT
  | appendEntryRequest _ => .APPEND_ENTRY_REQUEST
  | leaderHeartbeatResult _ => .LEADER_HEARTBEAT_RESULT

/-- What a class writes after the header. -/
def serializeFields : ConsensusPackage String → List UInt8
  | voteResult result => writeBoolean result.voteGranted
  | appendEntryRequest request => writeBoolean request.isProxified ++ writeString request.value
  | _ => []

/-- A package is written behind the texts of the protocol. -/
def serialize (p : ConsensusPackage String) : List UInt8 :=
  writeString magicCode ++ writeString protocolVersion ++ p.header.serialize p.command ++ p.serializeFields

/-- `Extract` of the class the command stands for. -/
def extract (header : ConsensusHeader) : ConsensusCommands → Reader UInt8 (ConsensusPackage String)
  | .VOTE_REQUEST => pure (voteRequest header)
  | .LEADER_HEARTBEAT_REQUEST => pure (leaderHeartbeatRequest header)
  | .LEADER_HEARTBEAT_RESULT => pure (leaderHeartbeatResult header)
  | .VOTE_RESULT => do
    let voteGranted ← nextBoolean
    pure (voteResult ⟨header, voteGranted⟩)
  | .APPEND_ENTRY_REQUEST => do
    let isProxified ← nextBoolean
    let value ← nextString
    pure (appendEntryRequest ⟨header, value, isProxified⟩)

/-- A package is read if its first texts are those of the protocol. -/
def deserialize : Reader UInt8 (Option (ConsensusPackage String)) := do
  let magic ← nextString
  let version ← nextString
  if magic ≠ magicCode ∨ version ≠ protocolVersion then pure none
  else do
    let (cmd, header) ← ConsensusHeader.deserialize
    let package ← extract header cmd
    pure (some package)

/-! ## Reading a package back -/

/-- The strings of a package. -/
def strings (p : ConsensusPackage String) : List String :=
  p.header.termId :: p.header.sourceUrl ::
    match p with
    | appendEntryRequest request => [request.value]
    | _ => []

/-- The values of a package are those the source's types have, and its strings are ASCII. -/
structure IsRepresentable (p : ConsensusPackage String) : Prop where
  strings : ∀ str ∈ p.strings, IsText str
  termIndex : IsLong p.header.termIndex
  sourcePort : IsInt p.header.sourcePort

theorem reads_extract {p : ConsensusPackage String} (representable : p.IsRepresentable) :
    Reads (extract p.header p.command) p.serializeFields p := by
  cases p with
  | leaderHeartbeatRequest header => exact Reads.pure _
  | voteRequest header => exact Reads.pure _
  | voteResult result => exact (reads_boolean result.voteGranted).map
  | appendEntryRequest request =>
    have value : IsText request.value := representable.strings _ (by simp [strings])
    exact (reads_boolean request.isProxified).bind (reads_string value).map
  | leaderHeartbeatResult header => exact Reads.pure _

/-- A package is read back, and what follows it is left in the buffer. -/
theorem reads {p : ConsensusPackage String} (representable : p.IsRepresentable) :
    Reads deserialize p.serialize (some p) := by
  have magic : Reads nextString (writeString magicCode) magicCode := reads_string (by decide)
  have version : Reads nextString (writeString protocolVersion) protocolVersion := reads_string (by decide)
  have header := ConsensusHeader.reads p.command (representable.strings p.header.termId (by simp [strings]))
    representable.termIndex (representable.strings p.header.sourceUrl (by simp [strings])) representable.sourcePort
  simp only [serialize, List.append_assoc]
  exact magic.bind <| version.bind <| header.bind (reads_extract representable).map

/-! ## What a buffer can be read as -/

/-- The characters of all strings of a package. -/
def characters (p : ConsensusPackage String) : Nat := (p.strings.map String.length).sum

theorem pays_extract (header : ConsensusHeader) (cmd : ConsensusCommands) :
    Pays (extract header cmd) fun p => p.characters - header.termId.length - header.sourceUrl.length := by
  cases cmd with
  | VOTE_RESULT =>
    refine pays_boolean.bind fun _ => Pays.pure ?_
    simp [characters, strings, ConsensusPackage.header]
  | APPEND_ENTRY_REQUEST =>
    refine pays_boolean.bind fun _ => pays_string.bind fun _ => Pays.pure ?_
    simp [characters, strings, ConsensusPackage.header]
  | _ =>
    refine Pays.pure ?_
    simp [characters, strings, ConsensusPackage.header]

theorem pays : Pays deserialize fun p => (p.map characters).getD 0 := by
  refine pays_string.bind fun magic => pays_string.bind fun version => ?_
  split
  · exact Pays.pure (by simp)
  · refine ConsensusHeader.pays.bind fun ⟨cmd, header⟩ => (pays_extract header cmd).bind fun p => Pays.pure ?_
    simp
    omega

end ConsensusPackage

end FaasNet.RaftConsensus
