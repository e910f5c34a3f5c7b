import Mathlib
import FaasNet.Lib.Runs
import FaasNet.RaftConsensus.LogStores
import FaasNet.RaftConsensus.NodeHost

/-!
# A peer over RocksDB that crashes and is restarted

An append is three writes: the record into the history of the log, the version of the log, and the
`PeerInfo`. A crash keeps the writes made so far and loses the `Info` of the running peer, which
`RunConsensusPeers` then reads again. The log numbers its records by its version and the peer by
`ConfirmedTermIndex`; a crash after the second write moves only the first of them, and the next record
goes under a key that is not its index.
-/

namespace FaasNet.RaftConsensus

open FaasNet.Lib

/-! ## Writes -/

/-- The databases the peers of a node write; `log` is that of the one peer looked at. -/
structure Databases where
  log : RocksDBLogStore
  peerInfos : RocksDBPeerInfos

/-- A write to one database: `historyDb.Put`, `versionDb.Put` and the `db.Put` of the peer infos. -/
inductive Write where
  | logHistory (version : Int32) (logRecord : LogRecord String)
  | logLatestVersion (version : Int32)
  | peerInfo (info : PeerInfo)

namespace Databases

def put (db : Databases) : Write → Databases
  | .logHistory version logRecord =>
    { db with log.logHistory := db.log.logHistory.insert (toString version.toInt) logRecord }
  | .logLatestVersion version => { db with log.logLatestVersion := some version }
  | .peerInfo info => { db with peerInfos := db.peerInfos.put info }

/-- The version `Add` gives to its record. -/
def nextVersion (db : Databases) : Int32 :=
  match db.log.logLatestVersion with
  | none => 1
  | some value => value + 1

/-- `Add` of the log store and then `Update` of the peer store, write by write. -/
def appendWrites (db : Databases) (info : PeerInfo) (logRecord : LogRecord String) : List Write :=
  [.logHistory db.nextVersion logRecord, .logLatestVersion db.nextVersion, .peerInfo info.upgrade]

/-- The writes are those of the two stores. -/
theorem foldl_appendWrites (db : Databases) (info : PeerInfo) (logRecord : LogRecord String) :
    (db.appendWrites info logRecord).foldl put db = ⟨db.log.add logRecord, db.peerInfos.put info.upgrade⟩ := rfl

/-- The info of the peer that `RunConsensusPeers` starts for a topic. -/
def startedInfo (db : Databases) (termId : String) : Option PeerInfo :=
  (PeerInfoStore.rocksDB db.peerInfos).getAll.find? (·.termId = termId)

/-- Each topic has one stored info. -/
theorem eq_of_mem_getAll {store : RocksDBPeerInfos} {a b : PeerInfo}
    (ha : a ∈ (PeerInfoStore.rocksDB store).getAll) (hb : b ∈ (PeerInfoStore.rocksDB store).getAll)
    (same : a.termId = b.termId) : a = b := by
  obtain ⟨⟨key, _⟩, entry, rfl⟩ := List.mem_map.mp ha
  obtain ⟨⟨key', _⟩, entry', rfl⟩ := List.mem_map.mp hb
  obtain rfl : key = key' := (store.keyed _ entry).symm.trans (same.trans (store.keyed _ entry'))
  exact store.db.nodupKeys.eq_of_mk_mem entry entry'

/-- A node that is started again runs a peer with this info, and with no other for the topic. -/
theorem restart_startedInfo {V : Type*} {n n' : NodeHost V} {env : Nat → Env} {peerInfoLst : List PeerInfo}
    {db : Databases} {termId : String} {info : PeerInfo} (stored : n.peerInfoStore = .rocksDB db.peerInfos)
    (restarted : n.restart env peerInfoLst = some n') (started : db.startedInfo termId = some info) :
    (∃ h ∈ n'.peers, h.info = info) ∧ ∀ h ∈ n'.peers, h.info.termId = termId → h.info = info := by
  have member := List.mem_of_find?_eq_some started
  have topic : info.termId = termId := by simpa using List.find?_some started
  rw [NodeHost.restart, stored] at restarted
  split_ifs at restarted with order
  obtain rfl := Option.some_inj.mp restarted
  have infos : (n.runConsensusPeers env peerInfoLst).peers.map (·.info) = peerInfoLst := by
    refine List.ext_getElem? fun k => ?_
    simp only [NodeHost.runConsensusPeers, List.getElem?_map, List.getElem?_mapIdx, Option.map_map]
    exact Option.map_id_apply
  constructor
  · have listed := order.symm.subset member
    rw [← infos] at listed
    simpa using listed
  · intro h host same
    have listed : h.info ∈ peerInfoLst := infos ▸ List.mem_map_of_mem host
    exact eq_of_mem_getAll (order.subset listed) member (same.trans topic.symm)

end Databases

/-! ## The peer -/

/-- A peer with its databases. `completed` are the records whose append has returned, in order; no code
reads it. -/
structure DurablePeer where
  databases : Databases
  info : PeerInfo
  completed : List (LogRecord String) := []

namespace DurablePeer

/-- The peer of a new topic: `StartPeer` has stored its info. -/
def start (peerInfos : RocksDBPeerInfos) (termId : String) : DurablePeer where
  databases := { log := {}, peerInfos := peerInfos.put ⟨termId, 0, 0⟩ }
  info := ⟨termId, 0, 0⟩

/-- An append that returns, or one that a crash cuts off after some of its three writes. A crash between
two appends is one that cuts off an append before its first write. -/
inductive Action where
  | append (value : String)
  | crash (value : String) (written : Nat)
  deriving DecidableEq

/-- The record of the private `AppendEntry`. -/
def nextRecord (s : DurablePeer) (value : String) : LogRecord String := ⟨s.info.confirmedTermIndex + 1, value⟩

def append (s : DurablePeer) (value : String) : DurablePeer where
  databases := (s.databases.appendWrites s.info (s.nextRecord value)).foldl Databases.put s.databases
  info := s.info.upgrade
  completed := s.completed ++ [s.nextRecord value]

/-- The databases as a crash leaves them; the last write is not among those it can come after. -/
def cut (s : DurablePeer) (value : String) (written : Nat) : Databases :=
  (((s.databases.appendWrites s.info (s.nextRecord value)).dropLast).take written).foldl Databases.put s.databases

def step (s : DurablePeer) : Action → Option DurablePeer
  | .append value => some (s.append value)
  | .crash value written =>
    ((s.cut value written).startedInfo s.info.termId).map fun info =>
      { s with databases := s.cut value written, info := info }

/-- `ReadRecord`, whose `int` is widened to the `long` of `Get`. -/
def readRecord (s : DurablePeer) (evtOffset : Int32) : Option (LogRecord String) :=
  s.databases.log.get evtOffset.toInt64

/-- What a restarted peer owes to the appends before it. -/
structure Consistent (s : DurablePeer) : Prop where
  one : ∀ i : Int, 1 ≤ i → i ≤ s.info.confirmedTermIndex →
    ∃! key, ∃ r, s.databases.log.logHistory.lookup key = some r ∧ r.index = i
  read : ∀ i : Int32, 1 ≤ i.toInt → i.toInt ≤ s.info.confirmedTermIndex →
    ∃ r, s.readRecord i = some r ∧ r.index = i.toInt
  kept : ∀ r ∈ s.completed, 1 ≤ r.index ∧ r.index ≤ s.info.confirmedTermIndex ∧
    ∃ key, s.databases.log.logHistory.lookup key = some r

/-- The version of the log is the confirmed index, and 32 bits have room for a key more. -/
def InStep (s : DurablePeer) : Prop :=
  s.databases.log.logLatestVersion.getD 0 = Int32.ofInt s.info.confirmedTermIndex ∧
    s.info.confirmedTermIndex < 2 ^ 32

/-- An append that writes anything finds the two numberings in step. -/
def WritesInStep (s : DurablePeer) : Action → Prop
  | .append _ => s.InStep
  | .crash _ written => written ≠ 0 → s.InStep

instance (s : DurablePeer) : Decidable s.InStep := inferInstanceAs (Decidable (_ ∧ _))

instance (s : DurablePeer) (a : Action) : Decidable (s.WritesInStep a) :=
  match a with
  | .append _ => inferInstanceAs (Decidable s.InStep)
  | .crash _ written => inferInstanceAs (Decidable (written ≠ 0 → s.InStep))

/-! ## Keys -/

/-- The key of the record with this index. -/
def keyOf (index : Int) : String := toString (Int32.ofInt index).toInt

theorem keyOf_inj {i j : Int} (hi : 1 ≤ i ∧ i ≤ 2 ^ 32) (hj : 1 ≤ j ∧ j ≤ 2 ^ 32) (same : keyOf i = keyOf j) :
    i = j := by
  have values : (Int32.ofInt i).toInt = (Int32.ofInt j).toInt := Int.repr_inj.mp same
  rw [Int32.toInt_ofInt, Int32.toInt_ofInt] at values
  simp only [Int.bmod_def, Int32.size] at values
  omega

theorem readRecord_eq (s : DurablePeer) (evtOffset : Int32) :
    s.readRecord evtOffset = s.databases.log.logHistory.lookup (keyOf evtOffset.toInt) := by
  rw [readRecord, RocksDBLogStore.get, keyOf, Int32.toInt_toInt64, Int32.ofInt_toInt]

theorem InStep.nextVersion_eq {s : DurablePeer} (inStep : s.InStep) :
    s.databases.nextVersion = Int32.ofInt (s.info.confirmedTermIndex + 1) := by
  rw [Int32.ofInt_add, ← inStep.1, Databases.nextVersion]
  cases s.databases.log.logLatestVersion with
  | none => rfl
  | some version => rfl

/-! ## What the databases hold -/

/-- The completed records are numbered, and whatever the history holds is under the key of its index. The
info of the running peer is the stored one. -/
structure Stored (s : DurablePeer) : Prop where
  fits : s.info.confirmedTermIndex ≤ 2 ^ 32
  confirmed : s.info.confirmedTermIndex = s.completed.length
  numbered : ∀ (k : Nat) (r : LogRecord String), s.completed[k]? = some r → r.index = k + 1
  under : ∀ r ∈ s.completed, s.databases.log.logHistory.lookup (keyOf r.index) = some r
  only : ∀ key r, s.databases.log.logHistory.lookup key = some r → key = keyOf r.index
  info : s.databases.startedInfo s.info.termId = some s.info

namespace Stored
variable {s : DurablePeer}

theorem index_le (stored : Stored s) {r : LogRecord String} (member : r ∈ s.completed) :
    1 ≤ r.index ∧ r.index ≤ s.info.confirmedTermIndex := by
  obtain ⟨k, found⟩ := List.mem_iff_getElem?.1 member
  have inside := (List.getElem?_eq_some_iff.1 found).1
  have index := stored.numbered k r found
  have confirmed := stored.confirmed
  omega

theorem exists_completed (stored : Stored s) {i : Int} (low : 1 ≤ i) (high : i ≤ s.info.confirmedTermIndex) :
    ∃ r ∈ s.completed, r.index = i := by
  have confirmed := stored.confirmed
  have inside : (i - 1).toNat < s.completed.length := by omega
  refine ⟨_, List.getElem_mem inside, ?_⟩
  rw [stored.numbered _ _ (List.getElem?_eq_getElem inside)]
  omega

theorem consistent (stored : Stored s) : Consistent s where
  one := by
    intro i low high
    obtain ⟨r, member, index⟩ := stored.exists_completed low high
    refine ⟨keyOf i, ⟨r, ?_, index⟩, ?_⟩
    · rw [← index]
      exact stored.under r member
    · rintro key ⟨r', found, index'⟩
      rw [← index']
      exact stored.only key r' found
  read := by
    intro i low high
    obtain ⟨r, member, index⟩ := stored.exists_completed low high
    refine ⟨r, ?_, index⟩
    rw [readRecord_eq, ← index]
    exact stored.under r member
  kept := fun r member =>
    ⟨(stored.index_le member).1, (stored.index_le member).2, keyOf r.index, stored.under r member⟩

/-- A record put in step is under the key of its index, which is that of no completed record. -/
theorem put_history (stored : Stored s) (inStep : s.InStep) (value : String) :
    let history := s.databases.log.logHistory.insert (toString s.databases.nextVersion.toInt) (s.nextRecord value)
    (∀ r ∈ s.completed, history.lookup (keyOf r.index) = some r) ∧
      (∀ key r, history.lookup key = some r → key = keyOf r.index) ∧
      history.lookup (keyOf (s.info.confirmedTermIndex + 1)) = some (s.nextRecord value) := by
  have place : toString s.databases.nextVersion.toInt = keyOf (s.info.confirmedTermIndex + 1) := by
    rw [inStep.nextVersion_eq]
    rfl
  have room := inStep.2
  simp only [place]
  refine ⟨fun r member => ?_, fun key r found => ?_, AList.lookup_insert _⟩
  · have index := stored.index_le member
    have other : keyOf r.index ≠ keyOf (s.info.confirmedTermIndex + 1) := fun same => by
      have := keyOf_inj (by omega) (by omega) same
      omega
    rw [AList.lookup_insert_ne other]
    exact stored.under r member
  · by_cases here : key = keyOf (s.info.confirmedTermIndex + 1)
    · rw [here, AList.lookup_insert, Option.some_inj] at found
      rw [here, ← found]
      rfl
    · rw [AList.lookup_insert_ne here] at found
      exact stored.only key r found

end Stored

/-! ## One step -/

/-- The infos of the started peers are found by their topic. -/
theorem startedInfo_put (db : Databases) (info : PeerInfo) :
    (db.put (.peerInfo info)).startedInfo info.termId = some info := by
  simp [Databases.startedInfo, Databases.put, RocksDBPeerInfos.put, PeerInfoStore.getAll, AList.entries_insert]

theorem cut_startedInfo (s : DurablePeer) (value : String) (written : Nat) (termId : String) :
    (s.cut value written).startedInfo termId = s.databases.startedInfo termId := by
  rcases written with _ | _ | _ | written <;> rfl

theorem cut_logHistory (s : DurablePeer) (value : String) (written : Nat) :
    (s.cut value written).log.logHistory =
      if written = 0 then s.databases.log.logHistory
      else s.databases.log.logHistory.insert (toString s.databases.nextVersion.toInt) (s.nextRecord value) := by
  rcases written with _ | _ | _ | written <;> rfl

theorem Stored.append {s : DurablePeer} (stored : Stored s) (inStep : s.InStep) (value : String) :
    Stored (s.append value) := by
  obtain ⟨under, only, new⟩ := stored.put_history inStep value
  have confirmed := stored.confirmed
  have room := inStep.2
  refine ⟨?_, ?_, ?_, ?_, only, startedInfo_put _ _⟩
  · show s.info.confirmedTermIndex + 1 ≤ 2 ^ 32
    omega
  · simp [DurablePeer.append, confirmed]
  · intro k r found
    simp only [DurablePeer.append, List.getElem?_append] at found
    split at found
    · exact stored.numbered k r found
    next beyond =>
      have last : k = s.completed.length := by
        have := (List.getElem?_eq_some_iff.1 found).1
        simp only [List.length_singleton] at this
        omega
      obtain rfl : s.nextRecord value = r := by simpa [last] using found
      rw [nextRecord, confirmed, last]
  · intro r member
    rcases List.mem_append.mp member with old | appended
    · exact under r old
    · rw [List.mem_singleton] at appended
      rw [appended]
      exact new

theorem Stored.crash {s : DurablePeer} (stored : Stored s) {value : String} {written : Nat}
    (inStep : written ≠ 0 → s.InStep) : Stored { s with databases := s.cut value written } := by
  refine ⟨stored.fits, stored.confirmed, stored.numbered, ?_, ?_, ?_⟩
  · intro r member
    show (s.cut value written).log.logHistory.lookup _ = _
    rw [cut_logHistory]
    split_ifs with nothing
    · exact stored.under r member
    · exact (stored.put_history (inStep nothing) value).1 r member
  · intro key r found
    simp only [cut_logHistory] at found
    split_ifs at found with nothing
    · exact stored.only key r found
    · exact (stored.put_history (inStep nothing) value).2.1 key r found
  · rw [cut_startedInfo]
    exact stored.info

/-- The restarted peer has the info it had. -/
theorem step_crash {s t : DurablePeer} (stored : Stored s) {value : String} {written : Nat}
    (taken : s.step (.crash value written) = some t) : t = { s with databases := s.cut value written } := by
  rw [step, cut_startedInfo, stored.info, Option.map_some] at taken
  exact (Option.some_inj.mp taken).symm

theorem stored_start (peerInfos : RocksDBPeerInfos) (termId : String) : Stored (start peerInfos termId) := by
  refine ⟨by simp [start], rfl, by simp [start], by simp [start], by simp [start], ?_⟩
  exact startedInfo_put ⟨{}, peerInfos⟩ ⟨termId, 0, 0⟩

theorem stored_step {s t : DurablePeer} {a : Action} (stored : Stored s) (inStep : s.WritesInStep a)
    (taken : s.step a = some t) : Stored t := by
  cases a with
  | append value =>
    obtain rfl := Option.some_inj.mp taken
    exact stored.append inStep value
  | crash value written =>
    obtain rfl := step_crash stored taken
    exact stored.crash inStep

/-! ## Runs -/

/-- **Restarts keep the log.** In a run whose appends find the version of the log and the confirmed index
in step, every state is consistent. -/
theorem restarts_consistent (peerInfos : RocksDBPeerInfos) (termId : String) (actions : List Action)
    (inStep : Along step WritesInStep (start peerInfos termId) actions) :
    Always step Consistent (start peerInfos termId) actions := by
  have stored : Always step Stored (start peerInfos termId) actions :=
    always_of_along (fun s a t => stored_step) (stored_start peerInfos termId) inStep
  exact stored.imp fun s => Stored.consistent

/-- An append that is cut off after the record was put is done again by the next one. -/
theorem restarts_consistent_recordPut :
    Along step WritesInStep (start {} "topic") [.append "a", .crash "b" 1, .append "c", .crash "d" 0] ∧
      Always step Consistent (start {} "topic") [.append "a", .crash "b" 1, .append "c", .crash "d" 0] := by
  have inStep : Along step WritesInStep (start {} "topic") [.append "a", .crash "b" 1, .append "c", .crash "d" 0] := by
    decide
  exact ⟨inStep, restarts_consistent {} "topic" _ inStep⟩

/-- The record whose `PeerInfo` was not updated stays in the log, and the next one has its index. -/
theorem restarts_not_consistent_versionPut :
    ¬ ∀ (peerInfos : RocksDBPeerInfos) (termId : String) (actions : List Action),
      Always step Consistent (start peerInfos termId) actions := by
  intro always
  obtain ⟨-, afterCrash⟩ := always {} "topic" [.crash "a" 2, .append "b"]
  obtain ⟨-, afterAppend⟩ := afterCrash _ rfl
  obtain ⟨key, -, unique⟩ := (afterAppend _ rfl).one 1 (by decide) (by decide)
  have first := unique "1" ⟨⟨1, "a"⟩, by decide⟩
  have second := unique "2" ⟨⟨1, "b"⟩, by decide⟩
  exact absurd (first.trans second.symm) (by decide)

/-- No crash comes after the version was put, and the appends do not exhaust the keys. -/
def Uncut (s : DurablePeer) : Action → Prop
  | .append _ => s.info.confirmedTermIndex < 2 ^ 32
  | .crash _ written => written < 2 ∧ s.info.confirmedTermIndex < 2 ^ 32

/-- Only a crash after the version was put takes the numberings apart. -/
theorem writesInStep_of_uncut (peerInfos : RocksDBPeerInfos) (termId : String) {actions : List Action}
    (uncut : Along step Uncut (start peerInfos termId) actions) :
    Along step WritesInStep (start peerInfos termId) actions := by
  refine along_of_invariant (fun s => Stored s ∧
    s.databases.log.logLatestVersion.getD 0 = Int32.ofInt s.info.confirmedTermIndex) ?_ ?_
    ⟨stored_start peerInfos termId, by simp [start]⟩ uncut
  · rintro s (value | ⟨value, written⟩) t ⟨stored, same⟩ uncut taken
    · have inStep : s.InStep := ⟨same, uncut⟩
      obtain rfl := Option.some_inj.mp taken
      exact ⟨stored.append inStep value, inStep.nextVersion_eq⟩
    · have inStep : s.InStep := ⟨same, uncut.2⟩
      obtain rfl := step_crash stored taken
      refine ⟨stored.crash fun _ => inStep, ?_⟩
      obtain ⟨early, -⟩ := uncut
      interval_cases written <;> exact same
  · rintro s (value | ⟨value, written⟩) ⟨-, same⟩ uncut
    · exact ⟨same, uncut⟩
    · exact fun _ => ⟨same, uncut.2⟩

end DurablePeer

end FaasNet.RaftConsensus
