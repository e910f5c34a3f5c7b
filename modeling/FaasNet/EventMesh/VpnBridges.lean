import Mathlib.Data.List.TakeWhile
import Mathlib.Data.List.Nodup
import FaasNet.Lib.Runs
import FaasNet.EventMesh.Messages

/-!
# The bridges between VPNs

The sink of the bridges asks for all of them time and again, and subscribes to those it does not listen to yet. A bridge
counts as listened to when one with its target is, so that of two bridges to one target the later one is served only
if both come with the same poll. Every bridge is served exactly if the new ones of each poll go to new targets.
-/

namespace FaasNet.EventMesh.VpnBridgeSinkJob

open FaasNet.Lib FaasNet.EventMesh.Client

/-! ## The model -/

/-- The bridges of one poll, and those with a subscription. -/
structure ListenRecord where
  bridges : List BridgeServerResponse
  subscriptions : List BridgeServerResponse
  deriving DecidableEq, Repr

/-- What `GetAllBridges` returns, and to which of the bridges a subscription succeeds. -/
structure Poll where
  allVpnBridges : List BridgeServerResponse
  subscribes : BridgeServerResponse → Bool := fun _ => true

def sameTarget (br b : BridgeServerResponse) : Bool :=
  b.targetVpn = br.targetVpn ∧ b.targetUrn = br.targetUrn ∧ b.targetPort = br.targetPort

/-- One bridge after the other; an exception ends the task. -/
def listenBridges (poll : Poll) : List BridgeServerResponse → List BridgeServerResponse
  | [] => []
  | bridgeServer :: bridges => if poll.subscribes bridgeServer then bridgeServer :: listenBridges poll bridges else []

def target (b : BridgeServerResponse) : String × String × Int := (b.targetVpn, b.targetUrn, b.targetPort)

theorem sameTarget_iff {br b : BridgeServerResponse} : sameTarget br b = true ↔ target b = target br := by
  simp [sameTarget, target]

def bridgeNotYetSubscribed (listenRecords : List ListenRecord) (allVpnBridges : List BridgeServerResponse) :
    List BridgeServerResponse :=
  allVpnBridges.filter fun br => !listenRecords.any fun r => r.bridges.any (sameTarget br)

/-- `HandleTimer`. The task of the record is its own, so it is run at once. -/
def handleTimer (listenRecords : List ListenRecord) (poll : Poll) : List ListenRecord :=
  if poll.allVpnBridges.isEmpty then listenRecords
  else
    let bridges := bridgeNotYetSubscribed listenRecords poll.allVpnBridges
    if bridges.isEmpty then listenRecords else listenRecords ++ [⟨bridges, listenBridges poll bridges⟩]

/-- The bridges with a subscription. -/
def started (listenRecords : List ListenRecord) : List BridgeServerResponse := listenRecords.flatMap (·.subscriptions)

/-! ## What should hold -/

/-- The job, and all that was returned to it. -/
structure Job where
  listenRecords : List ListenRecord := []
  returned : List BridgeServerResponse := []

namespace Job

def step (j : Job) (poll : Poll) : Option Job :=
  some { listenRecords := handleTimer j.listenRecords poll, returned := j.returned ++ poll.allVpnBridges }

/-- Exactly the bridges returned so far have a subscription, each one. -/
def ServesAll (j : Job) : Prop := (started j.listenRecords).Nodup ∧ ∀ b, b ∈ started j.listenRecords ↔ b ∈ j.returned

/-! ## The condition -/

/-- What a poll returns for the first time. -/
def newBridges (j : Job) (poll : Poll) : List BridgeServerResponse := poll.allVpnBridges.filter (· ∉ j.returned)

/-- The new bridges differ, their targets are new, and they can be subscribed to. -/
structure NewTargets (j : Job) (poll : Poll) : Prop where
  distinct : (j.newBridges poll).Nodup
  targets : ∀ br ∈ j.newBridges poll, ∀ b ∈ j.returned, target b ≠ target br
  subscribes : ∀ br ∈ j.newBridges poll, poll.subscribes br

/-! ## One poll -/

variable {j : Job} {poll : Poll}

theorem listenBridges_eq (bridges : List BridgeServerResponse) : listenBridges poll bridges = bridges.takeWhile poll.subscribes := by
  induction bridges with
  | nil => rfl
  | cons br bridges ih =>
    rw [listenBridges, List.takeWhile_cons, ih]

/-- Whether there is something new or not, what the new ones give is added. -/
theorem flatMap_handleTimer (items : ListenRecord → List BridgeServerResponse) (nothing : items ⟨[], []⟩ = [])
    (listenRecords : List ListenRecord) (poll : Poll) :
    (handleTimer listenRecords poll).flatMap items = listenRecords.flatMap items ++
      items ⟨bridgeNotYetSubscribed listenRecords poll.allVpnBridges,
        listenBridges poll (bridgeNotYetSubscribed listenRecords poll.allVpnBridges)⟩ := by
  rw [handleTimer]
  by_cases silent : poll.allVpnBridges.isEmpty
  · rw [if_pos silent, List.isEmpty_iff.mp silent]
    exact (List.append_nil _).symm.trans (congrArg _ nothing.symm)
  · rw [if_neg silent]
    by_cases old : (bridgeNotYetSubscribed listenRecords poll.allVpnBridges).isEmpty
    · rw [if_pos old, List.isEmpty_iff.mp old]
      exact (List.append_nil _).symm.trans (congrArg _ nothing.symm)
    · rw [if_neg old, List.flatMap_append, List.flatMap_singleton]

theorem started_handleTimer (listenRecords : List ListenRecord) (poll : Poll) :
    started (handleTimer listenRecords poll) = started listenRecords ++
      (bridgeNotYetSubscribed listenRecords poll.allVpnBridges).takeWhile poll.subscribes := by
  rw [started, flatMap_handleTimer _ rfl, listenBridges_eq, started]

theorem bridges_handleTimer (listenRecords : List ListenRecord) (poll : Poll) :
    (handleTimer listenRecords poll).flatMap (·.bridges) = listenRecords.flatMap (·.bridges) ++
      bridgeNotYetSubscribed listenRecords poll.allVpnBridges :=
  flatMap_handleTimer _ rfl _ _

theorem unlistened_iff {listenRecords : List ListenRecord} {br : BridgeServerResponse} :
    (!listenRecords.any fun r => r.bridges.any (sameTarget br)) = true ↔
      ∀ b ∈ listenRecords.flatMap (·.bridges), target b ≠ target br := by
  rw [Bool.not_eq_true', List.any_eq_false]
  constructor
  · intro unlistened b mem same
    obtain ⟨r, record, here⟩ := List.mem_flatMap.mp mem
    exact unlistened r record (List.any_eq_true.mpr ⟨b, here, sameTarget_iff.mpr same⟩)
  · intro unlistened r record listened
    obtain ⟨b, here, same⟩ := List.any_eq_true.mp listened
    exact unlistened b (List.mem_flatMap.mpr ⟨r, record, here⟩) (sameTarget_iff.mp same)

theorem mem_bridgeNotYetSubscribed {listenRecords : List ListenRecord} {allVpnBridges : List BridgeServerResponse}
    {br : BridgeServerResponse} : br ∈ bridgeNotYetSubscribed listenRecords allVpnBridges ↔
      br ∈ allVpnBridges ∧ ∀ b ∈ listenRecords.flatMap (·.bridges), target b ≠ target br := by
  rw [bridgeNotYetSubscribed, List.mem_filter, unlistened_iff]

/-- The targets that are listened to are those of what was returned. -/
def TargetsListened (j : Job) : Prop :=
  ∀ t, (∃ b ∈ j.listenRecords.flatMap (·.bridges), target b = t) ↔ ∃ b ∈ j.returned, target b = t

theorem TargetsListened.step (listened : j.TargetsListened) {next : Job} (taken : j.step poll = some next) :
    next.TargetsListened := by
  obtain rfl := Option.some.inj taken
  intro t
  rw [bridges_handleTimer]
  constructor
  · rintro ⟨b, mem, rfl⟩
    rcases List.mem_append.mp mem with earlier | new
    · obtain ⟨b', returned, same⟩ := (listened (target b)).mp ⟨b, earlier, rfl⟩
      exact ⟨b', List.mem_append_left _ returned, same⟩
    · exact ⟨b, List.mem_append_right _ (mem_bridgeNotYetSubscribed.mp new).1, rfl⟩
  · rintro ⟨b, mem, rfl⟩
    by_cases old : ∃ b' ∈ j.listenRecords.flatMap (·.bridges), target b' = target b
    · obtain ⟨b', earlier, same⟩ := old
      exact ⟨b', List.mem_append_left _ earlier, same⟩
    · rcases List.mem_append.mp mem with earlier | now
      · exact absurd ((listened (target b)).mpr ⟨b, earlier, rfl⟩) old
      · refine ⟨b, List.mem_append_right _ (mem_bridgeNotYetSubscribed.mpr ⟨now, ?_⟩), rfl⟩
        intro b' earlier same
        exact old ⟨b', earlier, same⟩

theorem TargetsListened.unlistened_iff (listened : j.TargetsListened) {br : BridgeServerResponse} :
    (∀ b ∈ j.listenRecords.flatMap (·.bridges), target b ≠ target br) ↔ ∀ b ∈ j.returned, target b ≠ target br := by
  have same := not_congr (listened (target br))
  simpa using same

/-- What is subscribed to is what is new, if the targets are. -/
theorem bridgeNotYetSubscribed_eq (listened : j.TargetsListened)
    (targets : ∀ br ∈ j.newBridges poll, ∀ b ∈ j.returned, target b ≠ target br) :
    bridgeNotYetSubscribed j.listenRecords poll.allVpnBridges = j.newBridges poll := by
  apply List.filter_congr
  intro br mem
  rw [Bool.eq_iff_iff, unlistened_iff, listened.unlistened_iff, decide_eq_true_iff]
  constructor
  · intro new old
    exact new br old rfl
  · intro new
    exact targets br (List.mem_filter.mpr ⟨mem, decide_eq_true new⟩)

/-- A poll serves all exactly if the targets are new. -/
theorem step_servesAll_iff (listened : j.TargetsListened) (serves : j.ServesAll) {next : Job}
    (taken : j.step poll = some next) : next.ServesAll ↔ j.NewTargets poll := by
  obtain rfl := Option.some.inj taken
  obtain ⟨once, served⟩ := serves
  rw [ServesAll, started_handleTimer]
  have subscribed : ∀ br ∈ j.newBridges poll, br ∈ poll.allVpnBridges ∧ br ∉ started j.listenRecords := by
    intro br mem
    obtain ⟨now, new⟩ := List.mem_filter.mp mem
    exact ⟨now, fun old => of_decide_eq_true new ((served br).mp old)⟩
  constructor
  · rintro ⟨nodup, all⟩
    have fresh : ∀ br ∈ j.newBridges poll,
        br ∈ (bridgeNotYetSubscribed j.listenRecords poll.allVpnBridges).takeWhile poll.subscribes := by
      intro br mem
      obtain ⟨now, new⟩ := subscribed br mem
      exact (List.mem_append.mp ((all br).mpr (List.mem_append_right _ now))).resolve_left new
    have targets : ∀ br ∈ j.newBridges poll, ∀ b ∈ j.returned, target b ≠ target br := by
      intro br mem
      have here := (List.takeWhile_prefix _).subset (fresh br mem)
      exact listened.unlistened_iff.mp (mem_bridgeNotYetSubscribed.mp here).2
    have subscribes : ∀ br ∈ j.newBridges poll, poll.subscribes br := fun br mem => List.mem_takeWhile_imp (fresh br mem)
    rw [bridgeNotYetSubscribed_eq listened targets, List.takeWhile_eq_self_iff.mpr subscribes] at nodup
    exact ⟨(List.nodup_append.mp nodup).2.1, targets, subscribes⟩
  · rintro ⟨distinct, targets, subscribes⟩
    rw [bridgeNotYetSubscribed_eq listened targets, List.takeWhile_eq_self_iff.mpr subscribes]
    refine ⟨List.nodup_append.mpr ⟨once, distinct, ?_⟩, fun br => ?_⟩
    · rintro b old br new rfl
      exact (subscribed b new).2 old
    · rw [List.mem_append, List.mem_append, served]
      constructor
      · rintro (old | new)
        · exact .inl old
        · exact .inr (subscribed br new).1
      · rintro (old | now)
        · exact .inl old
        · by_cases old : br ∈ j.returned
          · exact .inl old
          · exact .inr (List.mem_filter.mpr ⟨now, decide_eq_true old⟩)

/-! ## All polls -/

/-- After every poll the bridges returned so far are served, each once, if and only if the new bridges of every poll go to
new targets. -/
theorem always_servesAll_iff (polls : List Poll) : Always step ServesAll {} polls ↔ Along step NewTargets {} polls := by
  apply always_iff_along TargetsListened
  · intro j poll next listened _ taken
    exact listened.step taken
  · intro j poll _ _ disabled
    cases disabled
  · intro j poll next listened serves taken
    exact step_servesAll_iff listened serves taken
  · intro t
    simp
  · exact ⟨List.nodup_nil, fun b => Iff.rfl⟩

/-- A bridge to a target that another bridge has come with before. -/
theorem not_always_servesAll_sameTarget :
    ¬ Always step ServesAll {} [{ allVpnBridges := [⟨"a", "host", 4000, "vpn", "c"⟩] },
      { allVpnBridges := [⟨"a", "host", 4000, "vpn", "c"⟩, ⟨"b", "host", 4000, "vpn", "c"⟩] }] := by
  intro always
  have serves := (always.reached rfl).2 ⟨"b", "host", 4000, "vpn", "c"⟩
  revert serves
  decide

end Job

end FaasNet.EventMesh.VpnBridgeSinkJob
