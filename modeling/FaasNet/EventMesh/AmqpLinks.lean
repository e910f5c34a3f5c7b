import Mathlib.Data.List.Induction
import FaasNet.Common.Text
import FaasNet.Lib.Runs

/-!
# Links of AMQP

The handlers of `AMQPProxy` on the frames of one connection. A client attaches links to its sessions, and a transfer
names the link it belongs to by its handle. The proxy keeps one link for the whole connection, the one attached last, and
publishes every transfer to its target, also after it was detached. So a transfer goes to its own link exactly if the
target of that link is also the one attached last, and the proxy still reads: after an exception it reads nothing more.
-/

namespace FaasNet.EventMesh.AMQP

open FaasNet.Lib FaasNet.Common

/-! ## The handlers -/

/-- A terminus, with its address. -/
structure Terminus where
  address : Option String := none
  deriving DecidableEq, Repr

/-- `Attach`. A target or a source of another kind counts as none. -/
structure Attach where
  linkName : String
  handle : UInt32
  role : Bool
  source : Option Terminus := none
  target : Option Terminus := none
  deriving DecidableEq, Repr

structure Transfer where
  handle : UInt32
  deliveryId : UInt32
  deriving DecidableEq, Repr

/-- A frame with its channel. What the environment does is part of it: whether the event mesh gives the sessions of an attach
and takes the message of a transfer, and whether the answer, which repeats parts of the request, has room in its buffer. -/
inductive LinkFrame where
  | begin (channel : UInt16)
  | attach (channel : UInt16) (cmd : Attach) (answered : Bool)
  | transfer (channel : UInt16) (cmd : Transfer) (payload : Option (List UInt8)) (taken answered : Bool)
  | detach (channel : UInt16) (handle : UInt32)
  | endSession (channel : UInt16)
  deriving DecidableEq, Repr

/-- The frames of an answer. -/
inductive LinkAnswer where
  | begin (remoteChannel : UInt16)
  | attach (cmd : Attach)
  | flow (handle : UInt32) (linkCredit : Option UInt32)
  | dispose (first last : UInt32) (role settled : Bool)
  | detach (handle : UInt32) (closed : Bool)
  | endSession
  deriving DecidableEq, Repr

/-- The session of a connection, once its client is known: whether it has a session to publish with, what it subscribed
to, and its link. -/
structure StateSessionObject where
  eventMeshPubSession : Bool := false
  eventMeshSubSession : Option String := none
  link : Option Attach := none
  deriving DecidableEq, Repr

/-- What a handler leaves: the session, what was published and to which topic, and the answer, or none after an exception. -/
structure LinkResult where
  session : StateSessionObject
  published : Option (String × String) := none
  answer : Option (List LinkAnswer)
  deriving DecidableEq, Repr

def Terminus.isNamed (terminus : Option Terminus) : Bool :=
  terminus.any fun terminus => !isNullOrWhiteSpace terminus.address

section
variable (sessionLinkCredit : UInt32) (getString : List UInt8 → String)

/-- `AttachHandler`. Nobody looks at what the session is after an exception. -/
def handleAttach (session : StateSessionObject) (cmd : Attach) (answered : Bool) : LinkResult where
  session := {
    link := some cmd
    eventMeshPubSession := if Terminus.isNamed cmd.target then true else session.eventMeshPubSession
    eventMeshSubSession := if Terminus.isNamed cmd.source then cmd.source.bind (·.address) else session.eventMeshSubSession }
  answer :=
    if answered then
      some [.attach { cmd with role := !cmd.role },
        .flow cmd.handle (if Terminus.isNamed cmd.target then some sessionLinkCredit else none)]
    else none

/-- `PublishMessage`. It throws without a link, a target, an address, a session to publish with or a payload. -/
def publishMessage (session : StateSessionObject) (payload : Option (List UInt8)) (taken : Bool) : Option (String × String) := do
  let target ← session.link.bind (·.target)
  let address ← target.address
  guard session.eventMeshPubSession
  let payload ← payload
  guard taken
  return (address, getString payload)

/-- `TransferHandler`. -/
def handleTransfer (session : StateSessionObject) (cmd : Transfer) (payload : Option (List UInt8)) (taken answered : Bool) :
    LinkResult where
  session := session
  published := publishMessage getString session payload taken
  answer :=
    if (publishMessage getString session payload taken).isSome ∧ answered then
      some [.dispose cmd.deliveryId cmd.deliveryId true true]
    else none

/-- The handlers of the frames. -/
def handleLink (session : StateSessionObject) : LinkFrame → LinkResult
  | .begin channel => { session, answer := some [.begin channel] }
  | .attach _ cmd answered => handleAttach sessionLinkCredit session cmd answered
  | .transfer _ cmd payload taken answered => handleTransfer getString session cmd payload taken answered
  | .detach _ handle => { session, answer := some [.detach handle true] }
  | .endSession _ => { session, answer := some [.endSession] }

end

/-! ## Where transfers should go -/

def Attach.address (cmd : Attach) : Option String := cmd.target.bind (·.address)

/-- The link of a handle in the session of a channel: attached, not detached, its session not ended. -/
def attachedLink (history : List LinkFrame) (channel : UInt16) (handle : UInt32) : Option Attach :=
  history.foldl (fun link frame =>
    match frame with
    | .attach c cmd true => if c = channel ∧ cmd.handle = handle then some cmd else link
    | .detach c h => if c = channel ∧ h = handle then none else link
    | .endSession c => if c = channel then none else link
    | _ => link) none

/-- A connection, the frames that were sent on it, and whether an exception has ended the reading of it. -/
structure Links where
  session : StateSessionObject := {}
  history : List LinkFrame := []
  ended : Bool := false

namespace Links
variable (sessionLinkCredit : UInt32) (getString : List UInt8 → String)

/-- `ReadCallback` and `ReplyFrame`: after an exception the proxy does not receive again. -/
def step (s : Links) (frame : LinkFrame) : Option Links :=
  if s.ended then some { s with history := s.history ++ [frame] }
  else
    let result := handleLink sessionLinkCredit getString s.session frame
    some ⟨result.session, s.history ++ [frame], result.answer.isNone⟩

/-- What a frame publishes. -/
def published (s : Links) (frame : LinkFrame) : Option (String × String) :=
  if s.ended then none else (handleLink sessionLinkCredit getString s.session frame).published

/-- A transfer is published once, to the target address of its link, and refused without one; no other frame is. -/
def Delivers (s : Links) (frame : LinkFrame) : Prop :=
  s.published sessionLinkCredit getString frame =
    match frame with
    | .transfer channel cmd payload _ _ =>
      ((attachedLink s.history channel cmd.handle).bind Attach.address).map fun address => (address, getString (payload.getD []))
    | _ => none

/-! ## The condition -/

def attachOf : LinkFrame → Option Attach
  | .attach _ cmd _ => some cmd
  | _ => none

/-- The links of all channels in the order they were attached in. -/
def attaches (history : List LinkFrame) : List Attach := history.filterMap attachOf

/-- The address of the link attached last. -/
def lastAddress (history : List LinkFrame) : Option String := (attaches history).getLast?.bind Attach.address

/-- A transfer of a link is one of the link attached last, or of one with the same address; no exception has ended the reading,
it has a payload, the event mesh takes it, and a link was attached with an address that is not blank. Without a link one of
these is missing. -/
def GoesToLast (s : Links) : LinkFrame → Prop
  | .transfer channel cmd payload taken _ =>
    match (attachedLink s.history channel cmd.handle).bind Attach.address with
    | some address => s.ended = false ∧ lastAddress s.history = some address ∧
        (∃ attached ∈ attaches s.history, Terminus.isNamed attached.target) ∧ payload.isSome ∧ taken
    | none => s.ended ∨ lastAddress s.history = none ∨ (∀ attached ∈ attaches s.history, ¬ Terminus.isNamed attached.target) ∨
        payload = none ∨ ¬ taken
  | _ => True

/-! ## Runs -/

/-- As long as the proxy reads, the session has the link attached last, and a session to publish with after an attach with an
address. -/
structure KeepsLast (s : Links) : Prop where
  link : s.ended = false → s.session.link = (attaches s.history).getLast?
  pubSession : s.ended = false →
    s.session.eventMeshPubSession = (attaches s.history).any fun attached => Terminus.isNamed attached.target

variable {sessionLinkCredit getString}

theorem attaches_concat (history : List LinkFrame) (frame : LinkFrame) :
    attaches (history ++ [frame]) = attaches history ++ (attachOf frame).toList := by
  rw [attaches, List.filterMap_append, ← attaches, List.filterMap_cons]
  cases attachOf frame <;> rfl

/-- A frame that attaches nothing leaves the session as it is. -/
theorem session_of_attachOf (session : StateSessionObject) {frame : LinkFrame} (attaches : attachOf frame = none) :
    (handleLink sessionLinkCredit getString session frame).session = session := by
  cases frame with
  | attach channel cmd answered => cases attaches
  | begin | transfer | detach | endSession => rfl

theorem KeepsLast.step {s t : Links} {frame : LinkFrame} (keeps : s.KeepsLast)
    (stepped : s.step sessionLinkCredit getString frame = some t) : t.KeepsLast := by
  unfold Links.step at stepped
  split_ifs at stepped with ended
  · obtain rfl := Option.some.inj stepped
    have closed : ¬ s.ended = false := by simp [ended]
    exact ⟨fun reads => absurd reads closed, fun reads => absurd reads closed⟩
  · obtain rfl := Option.some.inj stepped
    have reads : s.ended = false := by simpa using ended
    cases attached : attachOf frame with
    | none =>
      have same : attaches (s.history ++ [frame]) = attaches s.history := by
        rw [attaches_concat, attached]
        exact List.append_nil _
      refine ⟨fun _ => ?_, fun _ => ?_⟩
      · dsimp only
        rw [session_of_attachOf s.session attached, same, keeps.link reads]
      · dsimp only
        rw [session_of_attachOf s.session attached, same, keeps.pubSession reads]
    | some cmd =>
      cases frame with
      | attach channel cmd answered =>
        refine ⟨fun _ => ?_, fun _ => ?_⟩
        · rw [attaches_concat]
          simp [handleLink, handleAttach, attachOf]
        · rw [attaches_concat, List.any_append, ← keeps.pubSession reads]
          cases named : Terminus.isNamed cmd.target <;> simp [handleLink, handleAttach, attachOf, named]
      | begin | transfer | detach | endSession => cases attached

/-- What a transfer publishes: it goes to the link of the session. -/
theorem publishMessage_eq (session : StateSessionObject) (payload : Option (List UInt8)) (taken : Bool) :
    publishMessage getString session payload taken =
      (session.link.bind Attach.address).bind fun address =>
        if session.eventMeshPubSession ∧ payload.isSome ∧ taken then some (address, getString (payload.getD [])) else none := by
  have address : session.link.bind Attach.address = (session.link.bind (·.target)).bind (·.address) :=
    (Option.bind_assoc ..).symm
  rw [publishMessage, address]
  cases session.link.bind (·.target) with
  | none => rfl
  | some target =>
    obtain ⟨address⟩ := target
    cases address <;> cases session.eventMeshPubSession <;> cases payload <;> cases taken <;> rfl

/-- A frame does what it should exactly if it goes to the link attached last. -/
theorem delivers_iff {s : Links} (keeps : s.KeepsLast) (frame : LinkFrame) :
    s.Delivers sessionLinkCredit getString frame ↔ s.GoesToLast frame := by
  cases frame with
  | begin | detach | endSession => exact iff_of_true (ite_self none) trivial
  | attach channel cmd answered => exact iff_of_true (ite_self none) trivial
  | transfer channel cmd payload taken answered =>
    rw [Delivers, Links.published, GoesToLast]
    cases reads : s.ended with
    | true =>
      cases (attachedLink s.history channel cmd.handle).bind Attach.address <;> simp
    | false =>
      have publishes : s.session.eventMeshPubSession = true ↔
          ∃ attached ∈ attaches s.history, Terminus.isNamed attached.target := by
        rw [keeps.pubSession reads, List.any_eq_true]
      have blank : s.session.eventMeshPubSession = false ↔
          ∀ attached ∈ attaches s.history, ¬ Terminus.isNamed attached.target := by
        rw [keeps.pubSession reads, List.any_eq_false]
      rw [handleLink, handleTransfer, if_neg Bool.false_ne_true]
      dsimp only
      rw [publishMessage_eq, keeps.link reads, ← lastAddress, ← publishes, ← blank]
      cases (attachedLink s.history channel cmd.handle).bind Attach.address with
      | none =>
        cases lastAddress s.history <;> cases s.session.eventMeshPubSession <;> cases payload <;> cases taken <;> simp
      | some address =>
        cases lastAddress s.history <;> cases s.session.eventMeshPubSession <;> cases payload <;> cases taken <;> simp

/-- **In a run every transfer goes to its own link** if and only if each is one of the link attached last, on a connection that
is still read. -/
theorem along_delivers_iff (sessionLinkCredit : UInt32) (getString : List UInt8 → String) (frames : List LinkFrame) :
    Along (step sessionLinkCredit getString) (Delivers sessionLinkCredit getString) {} frames ↔
      Along (step sessionLinkCredit getString) GoesToLast {} frames := by
  apply along_iff_of_invariant KeepsLast
  · intro s frame t keeps _ stepped
    exact keeps.step stepped
  · intro s frame keeps
    exact delivers_iff keeps frame
  · exact ⟨fun _ => rfl, fun _ => rfl⟩

/-- Two links side by side: a transfer of the first is published to the target of the second. -/
theorem not_along_delivers_twoLinks :
    ¬ Along (step 255 fun _ => "m") (Delivers 255 fun _ => "m") {}
      [.begin 1, .attach 1 { linkName := "a", handle := 0, role := false, target := some ⟨some "orders"⟩ } true,
        .attach 1 { linkName := "b", handle := 1, role := false, target := some ⟨some "invoices"⟩ } true,
        .transfer 1 ⟨0, 0⟩ (some [109]) true true] := by
  intro along
  have misses := (((along.2 _ rfl).2 _ rfl).2 _ rfl).1
  revert misses
  unfold Delivers
  decide

end Links

end FaasNet.EventMesh.AMQP
