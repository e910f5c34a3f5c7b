import Mathlib.Data.List.Infix

/-!
# Frames of AMQP

The receive loop of `AMQPProxy`: each chunk that the socket gives is taken for a protocol header or for one frame. The
first four bytes, the size of the frame, are read and not used. What decodes a performative is a library; what is relied
on is that it reads a performative from its complete bytes, and that bytes after those do not matter to it.
-/

namespace FaasNet.EventMesh.AMQP

/-! ## Frames -/

/-- What is used of the AMQP library: the encoding of a performative, the reading of one, which gives the bytes that are
left, and the name of its descriptor. -/
structure AmqpLibrary (C : Type*) where
  encode : C → List UInt8
  readDescribed : List UInt8 → Option (C × List UInt8)
  name : C → String

/-- One performative is decoded from complete bytes, which are not none; more bytes stay as they are. -/
structure AmqpLibrary.Lawful {C : Type*} (library : AmqpLibrary C) : Prop where
  encoded : ∀ cmd, library.encode cmd ≠ []
  complete : ∀ cmd rest, library.readDescribed (library.encode cmd ++ rest) = some (cmd, rest)
  more : ∀ buffer cmd rest others, library.readDescribed buffer = some (cmd, rest) →
    library.readDescribed (buffer ++ others) = some (cmd, rest ++ others)

/-- A frame with its performative. -/
structure Frame (C : Type*) where
  type : UInt8
  channel : UInt16
  cmd : C
  payload : List UInt8

/-- `AmqpBitConverter.WriteInt`, most significant byte first. -/
def writeInt (n : Nat) : List UInt8 :=
  [UInt8.ofNat (n / 0x1000000), UInt8.ofNat (n / 0x10000), UInt8.ofNat (n / 0x100), UInt8.ofNat n]

def writeUShort (n : UInt16) : List UInt8 := [UInt8.ofNat (n.toNat / 0x100), UInt8.ofNat n.toNat]

def readUShort (high low : UInt8) : UInt16 := UInt16.ofNat (high.toNat * 0x100 + low.toNat)

/-- The size is that of the whole frame, the data offset is two words: there is no extended header. -/
def Frame.bytes {C : Type*} (library : AmqpLibrary C) (frame : Frame C) : List UInt8 :=
  let body := library.encode frame.cmd ++ frame.payload
  writeInt (body.length + 8) ++ [2, frame.type] ++ writeUShort frame.channel ++ body

/-- `Frame.Decode`: the channel, the command, which is null if nothing follows the header, and the bytes left. -/
def decode {C : Type*} (library : AmqpLibrary C) : List UInt8 → Option (UInt16 × Option C × List UInt8)
  | _ :: _ :: _ :: _ :: _ :: _ :: high :: low :: rest =>
    if rest = [] then some (readUShort high low, none, [])
    else (library.readDescribed rest).map fun (cmd, left) => (readUShort high low, some cmd, left)
  | _ => none

/-! ## The receive loop -/

/-- `ProtocolHeader.Serialize`. -/
def protocolHeader (id major minor revision : UInt8) : List UInt8 := [65, 77, 81, 80, id, major, minor, revision]

def saslHeaderNegotiation : List UInt8 := protocolHeader 3 1 0 0
def saslHeaderSecuredConnection : List UInt8 := protocolHeader 0 1 0 0

structure RequestParameter (C : Type*) where
  cmd : C
  payload : Option (List UInt8)
  channel : UInt16
  deriving DecidableEq, Repr

/-- The values of `RequestResultStatus`. -/
def statusOk : Nat := 0
def statusExitSession : Nat := 1
def statusExitConnection : Nat := 1

structure RequestResult where
  status : Nat
  content : List (List UInt8) := []
  deriving DecidableEq, Repr

/-- The registered handlers over the state of a connection: their names, and `Handle`, which may throw, with the
answer sent. -/
structure RequestHandlers (C S : Type*) where
  requestNames : List String
  handle : S → RequestParameter C → Option (S × RequestResult)

/-- A connection: the state of its session, whether a receive is under way, and what its handlers were run on. -/
structure Connection (C S : Type*) where
  session : S
  reading : Bool := true
  handled : List (RequestParameter C) := []

section
variable {C S : Type*} (library : AmqpLibrary C) (handlers : RequestHandlers C S)

/-- Whether the next receive is begun after a handler has returned. -/
def readsOn (result : RequestResult) : Bool :=
  if result.status = statusExitSession then true else if result.status = statusExitConnection then false else true

/-- `ReplyFrame`. An exception ends the session, and nothing is received any more. -/
def replyFrame (connection : Connection C S) (buffer : List UInt8) : Connection C S :=
  match decode library buffer with
  | some (channel, some cmd, left) =>
    -- `Skip(frameBuffer.Offset + 4).Take(frameBuffer.Length - 4)`: the bytes left, without the first four
    let payload := if left.length > 0 then some (left.drop 4) else none
    if library.name cmd ∈ handlers.requestNames then
      let parameter := ⟨cmd, payload, channel⟩
      let handled := connection.handled ++ [parameter]
      match handlers.handle connection.session parameter with
      | some (session, result) => { session, reading := readsOn result, handled }
      | none => { connection with reading := false, handled }
    else { connection with reading := false }
  | _ => { connection with reading := false }

/-- `ReadCallback`. After a protocol header, which is answered, the next receive is begun. -/
def readCallback (connection : Connection C S) (buffer : List UInt8) : Connection C S :=
  if buffer = saslHeaderNegotiation then connection
  else if buffer = saslHeaderSecuredConnection then connection
  else replyFrame library handlers connection buffer

/-- The chunks the socket gives, as long as one is waited for. -/
def receive (connection : Connection C S) : List (List UInt8) → Connection C S
  | [] => connection
  | chunk :: chunks =>
    if connection.reading then receive (readCallback library handlers connection chunk) chunks else connection

/-- `StateObject.BufferSize`. -/
def bufferSize : Nat := 1024

/-- The chunks are the bytes of the frames, divided by TCP. -/
structure IsDivision (chunks : List (List UInt8)) (frames : List (Frame C)) : Prop where
  stream : chunks.flatten = (frames.map (Frame.bytes library)).flatten
  filled : ∀ chunk ∈ chunks, chunk ≠ []
  bounded : ∀ chunk ∈ chunks, chunk.length ≤ bufferSize

/-- What a handler has to be run on for a frame: the performative with its complete payload. -/
def Frame.parameter (frame : Frame C) : RequestParameter C :=
  ⟨frame.cmd, if frame.payload = [] then none else some frame.payload, frame.channel⟩

/-- The handlers are run on the frames, one by one. -/
def Handled (session : S) (frames : List (Frame C)) (chunks : List (List UInt8)) : Prop :=
  (receive library handlers { session } chunks).handled = frames.map Frame.parameter

/-- Every call but the last one returns, if the handlers are run on these one by one. -/
def Returns : S → List (RequestParameter C) → Prop
  | session, parameter :: next :: rest =>
    ∃ session' result, handlers.handle session parameter = some (session', result) ∧ Returns session' (next :: rest)
  | _, _ => True

/-- Each chunk is one frame; no frame has a payload; each performative has a handler; every call but the last returns. -/
structure Aligned (session : S) (frames : List (Frame C)) (chunks : List (List UInt8)) : Prop where
  whole : chunks = frames.map (Frame.bytes library)
  bare : ∀ frame ∈ frames, frame.payload = []
  known : ∀ frame ∈ frames, library.name frame.cmd ∈ handlers.requestNames
  returns : Returns handlers session (frames.map Frame.parameter)

end

/-! ## One chunk -/

section
variable {C S : Type*} {library : AmqpLibrary C} {handlers : RequestHandlers C S} {connection : Connection C S}
  {frame : Frame C} {chunk others stream : List UInt8}

theorem readUShort_writeUShort (n : UInt16) : readUShort (UInt8.ofNat (n.toNat / 0x100)) (UInt8.ofNat n.toNat) = n := by
  have small := n.toNat_lt
  apply UInt16.toNat_inj.mp
  simp only [readUShort, UInt16.toNat_ofNat', UInt8.toNat_ofNat']
  omega

theorem bytes_append (frame : Frame C) (stream : List UInt8) :
    ∃ s0 s1 s2 s3, frame.bytes library ++ stream = s0 :: s1 :: s2 :: s3 :: 2 :: frame.type ::
      UInt8.ofNat (frame.channel.toNat / 0x100) :: UInt8.ofNat frame.channel.toNat ::
        (library.encode frame.cmd ++ (frame.payload ++ stream)) :=
  ⟨_, _, _, _, by simp only [Frame.bytes, writeInt, writeUShort, List.cons_append, List.nil_append, List.append_assoc]; rfl⟩

/-- A chunk at the beginning of a frame is no protocol header: the byte after the size is 2. -/
theorem readCallback_eq (split : chunk ++ others = frame.bytes library ++ stream) :
    readCallback library handlers connection chunk = replyFrame library handlers connection chunk := by
  obtain ⟨s0, s1, s2, s3, start⟩ := @bytes_append _ library frame stream
  rw [start] at split
  have other (id major minor revision : UInt8) (apart : id ≠ 2) : chunk ≠ protocolHeader id major minor revision := by
    rintro rfl
    simp only [protocolHeader, List.cons_append, List.cons.injEq] at split
    exact apart split.2.2.2.2.1
  rw [readCallback, saslHeaderNegotiation, saslHeaderSecuredConnection, if_neg (other 3 1 0 0 (by decide)),
    if_neg (other 0 1 0 0 (by decide))]

/-- What is decoded of the first chunk, if anything is: the performative of the frame and its channel, with the bytes of
the chunk after the performative. -/
theorem decode_first (lawful : library.Lawful) (split : chunk ++ others = frame.bytes library ++ stream) {channel : UInt16}
    {cmd : C} {left : List UInt8} (decoded : decode library chunk = some (channel, some cmd, left)) :
    channel = frame.channel ∧ cmd = frame.cmd ∧ left ++ others = frame.payload ++ stream := by
  obtain ⟨s0, s1, s2, s3, start⟩ := @bytes_append _ library frame stream
  rw [start] at split
  unfold decode at decoded
  split at decoded
  next _ _ _ _ _ _ high low rest =>
    simp only [List.cons_append, List.cons.injEq] at split
    obtain ⟨-, -, -, -, -, -, rfl, rfl, body⟩ := split
    split at decoded
    next => simp at decoded
    next =>
      obtain ⟨⟨read, kept⟩, reads, same⟩ := Option.map_eq_some_iff.mp decoded
      simp only [Prod.mk.injEq, Option.some.injEq] at same
      obtain ⟨rfl, rfl, rfl⟩ := same
      have all := lawful.more rest read kept others reads
      rw [body, lawful.complete] at all
      obtain ⟨same, bytes⟩ := Prod.mk.inj (Option.some.inj all)
      exact ⟨readUShort_writeUShort _, same.symm, bytes.symm⟩
  next => simp at decoded

/-- Both ways to exit have the same value, so the next receive is always begun. -/
theorem readsOn_eq (result : RequestResult) : readsOn result = true := by
  unfold readsOn
  split
  next => rfl
  next other => exact if_neg other

/-- What becomes of the first chunk: nothing is run and reading ends; or the handler of the frame is run, with what the
chunk has after the performative, less four bytes, for a payload. -/
theorem readCallback_first (lawful : library.Lawful) (connection : Connection C S)
    (split : chunk ++ others = frame.bytes library ++ stream) :
    readCallback library handlers connection chunk = { connection with reading := false } ∨
    ∃ left, left ++ others = frame.payload ++ stream ∧ library.name frame.cmd ∈ handlers.requestNames ∧
      let parameter := ⟨frame.cmd, if left.length > 0 then some (left.drop 4) else none, frame.channel⟩
      readCallback library handlers connection chunk =
        match handlers.handle connection.session parameter with
        | some (session, _) => { session, handled := connection.handled ++ [parameter] }
        | none => { connection with reading := false, handled := connection.handled ++ [parameter] } := by
  rw [readCallback_eq split, replyFrame]
  split
  next channel cmd left decoded =>
    obtain ⟨rfl, rfl, bytes⟩ := decode_first lawful split decoded
    dsimp only
    split
    next known =>
      refine .inr ⟨left, bytes, known, ?_⟩
      cases handlers.handle connection.session _ with
      | none => rfl
      | some returned => simp only [readsOn_eq]
    next => exact .inl rfl
  next => exact .inl rfl

theorem decode_bytes (lawful : library.Lawful) (frame : Frame C) :
    decode library (frame.bytes library) = some (frame.channel, some frame.cmd, frame.payload) := by
  obtain ⟨s0, s1, s2, s3, start⟩ := @bytes_append _ library frame []
  rw [List.append_nil, List.append_nil] at start
  have filled : library.encode frame.cmd ++ frame.payload ≠ [] := fun empty =>
    lawful.encoded frame.cmd (List.append_eq_nil_iff.mp empty).1
  rw [start, decode, if_neg filled, lawful.complete, readUShort_writeUShort]
  rfl

/-- A whole frame without a payload. -/
theorem readCallback_bytes (lawful : library.Lawful) (connection : Connection C S) (bare : frame.payload = [])
    (known : library.name frame.cmd ∈ handlers.requestNames) :
    readCallback library handlers connection (frame.bytes library) =
      match handlers.handle connection.session frame.parameter with
      | some (session, _) => { session, handled := connection.handled ++ [frame.parameter] }
      | none => { connection with reading := false, handled := connection.handled ++ [frame.parameter] } := by
  have whole : frame.bytes library ++ [] = frame.bytes library ++ [] := rfl
  rw [readCallback_eq whole, replyFrame, decode_bytes lawful, Frame.parameter, if_pos bare]
  simp only [bare, List.length_nil, gt_iff_lt, Nat.lt_irrefl, if_false, if_pos known]
  cases handlers.handle connection.session ⟨frame.cmd, none, frame.channel⟩ with
  | none => rfl
  | some returned => simp only [readsOn_eq]

/-! ## The whole stream -/

theorem receive_of_not_reading (stopped : connection.reading = false) (chunks : List (List UInt8)) :
    receive library handlers connection chunks = connection := by
  cases chunks with
  | nil => rfl
  | cons chunk chunks => simp [receive, stopped]

theorem handled_grows_readCallback (connection : Connection C S) (chunk : List UInt8) :
    connection.handled <+: (readCallback library handlers connection chunk).handled := by
  unfold readCallback
  split
  next => exact List.prefix_rfl
  next =>
    split
    next => exact List.prefix_rfl
    next =>
      unfold replyFrame
      split
      next channel cmd left _ =>
        dsimp only
        by_cases known : library.name cmd ∈ handlers.requestNames
        · rw [if_pos known]
          cases handlers.handle connection.session _ with
          | none => exact List.prefix_append _ _
          | some returned => exact List.prefix_append _ _
        · rw [if_neg known]
      next => exact List.prefix_rfl

/-- What was run stays run. -/
theorem handled_grows (connection : Connection C S) (chunks : List (List UInt8)) :
    connection.handled <+: (receive library handlers connection chunks).handled := by
  induction chunks generalizing connection with
  | nil => exact List.prefix_rfl
  | cons chunk chunks ih =>
    rw [receive]
    split
    next => exact (handled_grows_readCallback connection chunk).trans (ih _)
    next => exact List.prefix_rfl

theorem handled_of_aligned (lawful : library.Lawful) {frames : List (Frame C)} {chunks : List (List UInt8)}
    (connection : Connection C S) (reading : connection.reading)
    (aligned : Aligned library handlers connection.session frames chunks) :
    (receive library handlers connection chunks).handled = connection.handled ++ frames.map Frame.parameter := by
  obtain ⟨rfl, bare, known, returns⟩ := aligned
  induction frames generalizing connection with
  | nil => simp [receive]
  | cons frame frames ih =>
    rw [List.map_cons, receive, if_pos reading,
      readCallback_bytes lawful connection (bare frame (by simp)) (known frame (by simp))]
    cases frames with
    | nil =>
      cases handlers.handle connection.session frame.parameter with
      | none => rfl
      | some returned => rfl
    | cons next rest =>
      obtain ⟨session, result, handled, returns⟩ := returns
      rw [handled]
      have rest := ih { session, handled := connection.handled ++ [frame.parameter] } rfl
        (fun other member => bare other (List.mem_cons_of_mem _ member))
        (fun other member => known other (List.mem_cons_of_mem _ member)) returns
      simpa using rest

theorem eq_nil_of_flatten {chunks : List (List UInt8)} (filled : ∀ chunk ∈ chunks, chunk ≠ []) (empty : chunks.flatten = []) :
    chunks = [] := by
  cases chunks with
  | nil => rfl
  | cons chunk chunks => exact absurd (List.flatten_eq_nil_iff.mp empty chunk (by simp)) (filled chunk (by simp))

/-- The bytes after the performative, less four, are the payload of the last frame only if there are none. -/
theorem bare_of_payload {left payload : List UInt8} (split : left ++ others = payload)
    (same : (if left.length > 0 then some (left.drop 4) else none) = if payload = [] then none else some payload) :
    payload = [] := by
  by_contra filled
  rw [if_neg filled] at same
  have short := congrArg List.length split
  rw [List.length_append] at short
  have some_left : 0 < payload.length := List.length_pos_iff.mpr filled
  split at same
  next =>
    have dropped := congrArg List.length (Option.some.inj same)
    rw [List.length_drop] at dropped
    omega
  next => cases same

/-- A payload that the frame does not have is none in the chunk either. -/
theorem left_of_bare {left payload : List UInt8} (bare : payload = [])
    (same : (if left.length > 0 then some (left.drop 4) else none) = if payload = [] then none else some payload) :
    left = [] := by
  rw [if_pos bare] at same
  by_contra filled
  rw [if_pos (List.length_pos_iff.mpr filled)] at same
  cases same

/-- The first handler is run on the first frame. -/
theorem parameter_of_run {parameter : RequestParameter C} {frames : List (Frame C)} {chunks : List (List UInt8)}
    (run : readCallback library handlers connection chunk =
      match handlers.handle connection.session parameter with
      | some (session, _) => { session, handled := connection.handled ++ [parameter] }
      | none => { connection with reading := false, handled := connection.handled ++ [parameter] })
    (handled : (receive library handlers (readCallback library handlers connection chunk) chunks).handled =
      connection.handled ++ (frame :: frames).map Frame.parameter) :
    parameter.payload = if frame.payload = [] then none else some frame.payload := by
  have kept := @handled_grows _ _ library handlers (readCallback library handlers connection chunk) chunks
  have first : (readCallback library handlers connection chunk).handled = connection.handled ++ [parameter] := by
    rw [run]
    cases handlers.handle connection.session parameter <;> rfl
  rw [handled, first, List.map_cons, List.prefix_append_right_inj, List.cons_prefix_cons] at kept
  rw [kept.1]
  rfl

theorem aligned_of_handled (lawful : library.Lawful) {frames : List (Frame C)} {chunks : List (List UInt8)}
    (connection : Connection C S) (reading : connection.reading)
    (stream : chunks.flatten = (frames.map (Frame.bytes library)).flatten) (filled : ∀ chunk ∈ chunks, chunk ≠ [])
    (plain : ∀ frame ∈ frames.dropLast, frame.payload = [])
    (handled : (receive library handlers connection chunks).handled = connection.handled ++ frames.map Frame.parameter) :
    Aligned library handlers connection.session frames chunks := by
  induction frames generalizing connection chunks with
  | nil =>
    obtain rfl := eq_nil_of_flatten filled stream
    exact ⟨rfl, by simp, by simp, trivial⟩
  | cons frame frames ih =>
    cases chunks with
    | nil =>
      obtain ⟨s0, s1, s2, s3, start⟩ := @bytes_append _ library frame (frames.map (Frame.bytes library)).flatten
      rw [List.map_cons, List.flatten_cons, start] at stream
      cases stream
    | cons chunk chunks =>
      have split : chunk ++ chunks.flatten = frame.bytes library ++ (frames.map (Frame.bytes library)).flatten := by
        simpa using stream
      rw [receive, if_pos reading] at handled
      rcases @readCallback_first _ _ _ handlers _ _ _ _ lawful connection split with nothing | ⟨left, bytes, known, run⟩
      · rw [nothing, receive_of_not_reading rfl] at handled
        simp at handled
      · -- the handler was run on the frame, so the chunk ends with its performative
        have same := parameter_of_run run handled
        have bare : frame.payload = [] := by
          cases frames with
          | nil => exact bare_of_payload (by simpa using bytes) same
          | cons next rest => exact plain frame (by simp)
        obtain rfl := left_of_bare bare same
        have rest : chunks.flatten = (frames.map (Frame.bytes library)).flatten := by simpa [bare] using bytes
        have whole : chunk = frame.bytes library := by
          rw [rest] at split
          exact List.append_cancel_right split
        have others : ∀ chunk ∈ chunks, chunk ≠ [] := fun other member => filled other (List.mem_cons_of_mem _ member)
        have plain : ∀ frame ∈ frames.dropLast, frame.payload = [] := by
          intro other member
          cases frames with
          | nil => cases member
          | cons next rest => exact plain other (List.mem_cons_of_mem _ member)
        rw [whole, readCallback_bytes lawful connection bare known] at handled
        cases returned : handlers.handle connection.session frame.parameter with
        | none =>
          rw [returned, receive_of_not_reading rfl] at handled
          have last : frames = [] := by simpa using handled
          subst last
          obtain rfl := eq_nil_of_flatten others rest
          exact ⟨by simp [whole], by simpa using bare, by simpa using known, trivial⟩
        | some pair =>
          obtain ⟨session, result⟩ := pair
          rw [returned] at handled
          have aligned := ih { session, handled := connection.handled ++ [frame.parameter] } rfl rest others plain
            (by simpa using handled)
          refine ⟨by rw [whole, aligned.whole, List.map_cons], ?_, ?_, ?_⟩
          · exact List.forall_mem_cons.mpr ⟨bare, aligned.bare⟩
          · exact List.forall_mem_cons.mpr ⟨known, aligned.known⟩
          · cases frames with
            | nil => trivial
            | cons next rest => exact ⟨session, result, returned, aligned.returns⟩

/-- **When frames are reassembled.** The handlers are run on exactly the frames if every chunk is one frame without a
payload; and only then, unless a frame before the last one has a payload. -/
theorem handled_frames (lawful : library.Lawful) (handlers : RequestHandlers C S) (session : S) {frames : List (Frame C)}
    {chunks : List (List UInt8)} (division : IsDivision library chunks frames) :
    (Aligned library handlers session frames chunks → Handled library handlers session frames chunks) ∧
      ((∀ frame ∈ frames.dropLast, frame.payload = []) → Handled library handlers session frames chunks →
        Aligned library handlers session frames chunks) := by
  refine ⟨fun aligned => ?_, fun plain handled => ?_⟩
  · exact handled_of_aligned lawful { session } rfl aligned
  · exact aligned_of_handled lawful { session } rfl division.stream division.filled plain handled

end

/-- A library of one performative, `end` without an error. -/
def endLibrary : AmqpLibrary Unit where
  encode _ := [0x00, 0x53, 0x17, 0x45]
  readDescribed
    | 0x00 :: 0x53 :: 0x17 :: 0x45 :: rest => some ((), rest)
    | _ => none
  name _ := "amqp:end:list"

theorem endLibrary_lawful : endLibrary.Lawful where
  encoded _ := by simp [endLibrary]
  complete _ _ := rfl
  more buffer cmd rest others reads := by
    simp only [endLibrary] at reads ⊢
    split at reads
    next tail =>
      obtain ⟨-, rfl⟩ := Prod.mk.inj (Option.some.inj reads)
      rfl
    next => cases reads

def endFrame : Frame Unit := ⟨0, 1, (), []⟩

/-- Handlers of which one, `EndHandler`, is there. -/
def endHandlers : RequestHandlers Unit Unit where
  requestNames := ["amqp:end:list"]
  handle _ _ := some ((), ⟨statusOk, []⟩)

theorem handled_two_chunks :
    Handled endLibrary endHandlers () [endFrame, endFrame] [endFrame.bytes endLibrary, endFrame.bytes endLibrary] :=
  (handled_frames endLibrary_lawful endHandlers () ⟨rfl, by decide, by decide⟩).1
    ⟨rfl, by decide, by decide, ⟨(), ⟨statusOk, []⟩, rfl, trivial⟩⟩

/-- Two frames in one chunk: the handler is run once, and the second frame is its payload. -/
theorem not_handled_one_chunk :
    IsDivision endLibrary [endFrame.bytes endLibrary ++ endFrame.bytes endLibrary] [endFrame, endFrame] ∧
      ¬ Handled endLibrary endHandlers () [endFrame, endFrame]
        [endFrame.bytes endLibrary ++ endFrame.bytes endLibrary] :=
  ⟨⟨rfl, by decide, by decide⟩, by unfold Handled; decide⟩

end FaasNet.EventMesh.AMQP
