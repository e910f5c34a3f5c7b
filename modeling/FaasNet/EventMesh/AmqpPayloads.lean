import FaasNet.EventMesh.AmqpFrames

/-!
# Payloads of AMQP

How a message is written into the frame of a transfer and how its body is taken out of one. Frames are built in a buffer
of 128 bytes, whatever size was negotiated, and what is taken out of a frame is its payload without the first four bytes,
however long the header of the body is. So a body is carried exactly if its header has four bytes and all fit the buffer.
-/

namespace FaasNet.EventMesh.AMQP

/-! ## Buffers -/

/-- A `ByteBuffer` that does not grow. -/
@[ext] structure ByteBuffer where
  size : Nat
  bytes : List UInt8
  fits : bytes.length ≤ size

namespace ByteBuffer

def create (size : Nat) : ByteBuffer := ⟨size, [], Nat.zero_le size⟩

/-- Writing throws where the bytes do not fit. -/
def write (buffer : ByteBuffer) (bytes : List UInt8) : Option ByteBuffer :=
  if fits : buffer.bytes.length + bytes.length ≤ buffer.size then
    some ⟨buffer.size, buffer.bytes ++ bytes, List.length_append ▸ fits⟩
  else none

/-- `AmqpBitConverter.WriteInt` at the start of what is written. -/
def writeIntAtStart (buffer : ByteBuffer) (n : Nat) : ByteBuffer where
  size := buffer.size
  bytes := (writeInt n ++ buffer.bytes.drop 4).take buffer.bytes.length
  fits := (List.length_take_le _ _).trans buffer.fits

theorem write_eq_some_iff {buffer written : ByteBuffer} {bytes : List UInt8} : buffer.write bytes = some written ↔
    buffer.bytes.length + bytes.length ≤ buffer.size ∧ written.size = buffer.size ∧ written.bytes = buffer.bytes ++ bytes := by
  rw [write, Option.dite_none_right_eq_some]
  constructor
  · rintro ⟨fits, same⟩
    obtain rfl := Option.some.inj same
    exact ⟨fits, rfl, rfl⟩
  · rintro ⟨fits, size, bytes⟩
    exact ⟨fits, congrArg some (ByteBuffer.ext size.symm bytes.symm)⟩

/-- Several writes are one of all the bytes. -/
theorem foldlM_write_eq_some_iff {parts : List (List UInt8)} {buffer written : ByteBuffer} :
    parts.foldlM write buffer = some written ↔ buffer.bytes.length + parts.flatten.length ≤ buffer.size ∧
      written.size = buffer.size ∧ written.bytes = buffer.bytes ++ parts.flatten := by
  induction parts generalizing buffer with
  | nil =>
    constructor
    · rintro same
      obtain rfl := Option.some.inj same
      exact ⟨buffer.fits, rfl, (List.append_nil _).symm⟩
    · rintro ⟨-, size, bytes⟩
      exact congrArg some (ByteBuffer.ext size.symm (bytes.trans (List.append_nil _)).symm)
  | cons part parts ih =>
    rw [List.foldlM_cons, List.flatten_cons, List.length_append]
    constructor
    · intro both
      obtain ⟨next, first, rest⟩ := Option.bind_eq_some_iff.mp both
      obtain ⟨-, size, bytes⟩ := write_eq_some_iff.mp first
      obtain ⟨fits, size', bytes'⟩ := ih.mp rest
      rw [bytes, List.length_append] at fits
      exact ⟨by omega, size'.trans size, by rw [bytes', bytes, List.append_assoc]⟩
    · rintro ⟨fits, size, bytes⟩
      have first : buffer.bytes.length + part.length ≤ buffer.size := by omega
      apply Option.bind_eq_some_iff.mpr
      refine ⟨⟨buffer.size, buffer.bytes ++ part, List.length_append ▸ first⟩, write_eq_some_iff.mpr ⟨first, rfl, rfl⟩, ?_⟩
      apply ih.mpr
      refine ⟨?_, size, by rw [bytes, List.append_assoc]⟩
      show (buffer.bytes ++ part).length + parts.flatten.length ≤ buffer.size
      rw [List.length_append]
      omega

/-- The size is written over the first four bytes. -/
theorem bytes_writeIntAtStart {buffer : ByteBuffer} {start rest : List UInt8} (bytes : buffer.bytes = start ++ rest)
    (four : start.length = 4) (n : Nat) : (buffer.writeIntAtStart n).bytes = writeInt n ++ rest := by
  show (writeInt n ++ buffer.bytes.drop 4).take buffer.bytes.length = _
  rw [bytes, ← four, List.drop_left]
  apply List.take_of_length_le
  rw [List.length_append, List.length_append, four]
  exact Nat.le_refl _

end ByteBuffer

/-! ## Messages and frames -/

/-- The sections of a message, encoded. -/
structure Message where
  header : Option (List UInt8) := none
  deliveryAnnotations : Option (List UInt8) := none
  messageAnnotations : Option (List UInt8) := none
  properties : Option (List UInt8) := none
  applicationProperties : Option (List UInt8) := none
  bodySection : Option (List UInt8) := none
  footer : Option (List UInt8) := none

def Message.sections (message : Message) : List (List UInt8) :=
  [message.header, message.deliveryAnnotations, message.messageAnnotations, message.properties,
    message.applicationProperties, message.bodySection, message.footer].reduceOption

/-- `MessageExtensions.Serialize`. The bytes reserved before the sections are not among those written. -/
def Message.serialize (message : Message) (estimatedMessageSize : Nat) : Option ByteBuffer :=
  message.sections.foldlM ByteBuffer.write (ByteBuffer.create estimatedMessageSize)

def cmdBufferSize : Nat := 128

section
variable {C : Type} (library : AmqpLibrary C)

/-- `Frame.Serialize` without a payload: four bytes for the size, the data offset, the type, the channel, the command. -/
def serializeCmd (type : UInt8) (channel : UInt16) (cmd : C) : Option ByteBuffer := do
  let parts := [[0, 0, 0, 0], [2], [type], writeUShort channel, library.encode cmd]
  let buffer ← parts.foldlM ByteBuffer.write (ByteBuffer.create cmdBufferSize)
  return buffer.writeIntAtStart buffer.bytes.length

/-- `Frame.Serialize` with a payload. -/
def serialize (type : UInt8) (channel : UInt16) (cmd : C) (payload : ByteBuffer) : Option ByteBuffer := do
  let buffer ← serializeCmd library type channel cmd
  let frameSize := buffer.bytes.length + payload.bytes.length
  (buffer.writeIntAtStart frameSize).write payload.bytes

/-- What `ReplyFrame` takes out of a frame: the channel, the command and the payload. -/
def received (buffer : List UInt8) : Option (UInt16 × Option C × Option (List UInt8)) :=
  (decode library buffer).map fun (channel, cmd, left) =>
    (channel, cmd, if left.length > 0 then some (left.drop 4) else none)

/-! ## What should hold -/

/-- How the library encodes the section of a body: a descriptor and the length, of one byte or of four; and the size it
estimates for the message. -/
structure BodyEncoding where
  descriptor : Nat → List UInt8
  estimatedMessageSize : List UInt8 → Nat

variable (encoding : BodyEncoding)

def lengthBytes (n : Nat) : List UInt8 := if n < 256 then [UInt8.ofNat n] else writeInt n

def BodyEncoding.header (n : Nat) : List UInt8 := encoding.descriptor n ++ lengthBytes n

def BodyEncoding.bodySection (body : List UInt8) : List UInt8 := encoding.header body.length ++ body

/-- The transfer of the callback in `CreateSubSession`. -/
def sendTransfer (channel : UInt16) (transfer : C) (body : List UInt8) : Option ByteBuffer := do
  let message : Message := { bodySection := some (encoding.bodySection body) }
  let payload ← message.serialize (encoding.estimatedMessageSize body)
  serialize library 0 channel transfer payload

variable (channel : UInt16) (cmd : C) (body : List UInt8)

/-- The frame is built, its size is that of all its bytes, and the body is taken out of it again. -/
def Carries : Prop :=
  ∃ buffer, sendTransfer library encoding channel cmd body = some buffer ∧
    buffer.bytes.take 4 = writeInt buffer.bytes.length ∧ received library buffer.bytes = some (channel, some cmd, some body)

/-- All fits the buffers, and the header of the body has four bytes, or no more before an empty body. -/
structure CanCarry : Prop where
  estimated : (encoding.bodySection body).length ≤ encoding.estimatedMessageSize body
  fits : 8 + (library.encode cmd).length + (encoding.bodySection body).length ≤ cmdBufferSize
  header : (encoding.header body.length).length = 4 ∨ body = [] ∧ (encoding.header 0).length < 4

end

/-! ## Sending and receiving -/

section
variable {C : Type} {library : AmqpLibrary C} {encoding : BodyEncoding} {channel : UInt16} {cmd : C} {body : List UInt8}

/-- The bytes of a frame, size and all. -/
theorem length_bytes (frame : Frame C) :
    (frame.bytes library).length = 8 + (library.encode frame.cmd).length + frame.payload.length := by
  simp only [Frame.bytes, writeInt, writeUShort, List.length_append, List.length_cons, List.length_nil]
  omega

/-- What a frame has after its size and before the payload. -/
def afterSize (library : AmqpLibrary C) (type : UInt8) (channel : UInt16) (cmd : C) : List UInt8 :=
  [2, type] ++ writeUShort channel ++ library.encode cmd

theorem length_afterSize (type : UInt8) :
    ([0, 0, 0, 0] ++ afterSize library type channel cmd).length = 8 + (library.encode cmd).length := by
  simp only [afterSize, writeUShort, List.length_append, List.length_cons, List.length_nil]
  omega

theorem bytes_eq_afterSize (type : UInt8) (payload : List UInt8) : Frame.bytes library ⟨type, channel, cmd, payload⟩ =
    writeInt (8 + (library.encode cmd).length + payload.length) ++ afterSize library type channel cmd ++ payload := by
  have size : (library.encode cmd ++ payload).length + 8 = 8 + (library.encode cmd).length + payload.length := by
    rw [List.length_append]
    omega
  rw [Frame.bytes, size, afterSize]
  simp only [List.append_assoc]

/-- What is written before the payload. -/
theorem serializeCmd_eq_some_iff {type : UInt8} {buffer : ByteBuffer} :
    serializeCmd library type channel cmd = some buffer ↔ 8 + (library.encode cmd).length ≤ cmdBufferSize ∧
      buffer.size = cmdBufferSize ∧
        buffer.bytes = writeInt (8 + (library.encode cmd).length) ++ afterSize library type channel cmd := by
  have parts : [[0, 0, 0, 0], [2], [type], writeUShort channel, library.encode cmd].flatten =
      [0, 0, 0, 0] ++ afterSize library type channel cmd := by
    simp [afterSize]
  have length : ([0, 0, 0, 0] ++ afterSize library type channel cmd).length = _ := length_afterSize type
  have written : ∀ header : ByteBuffer, [[0, 0, 0, 0], [2], [type], writeUShort channel, library.encode cmd].foldlM
      ByteBuffer.write (ByteBuffer.create cmdBufferSize) = some header ↔ 8 + (library.encode cmd).length ≤ cmdBufferSize ∧
        header.size = cmdBufferSize ∧ header.bytes = [0, 0, 0, 0] ++ afterSize library type channel cmd := by
    intro header
    rw [ByteBuffer.foldlM_write_eq_some_iff, parts, ← length]
    show 0 + _ ≤ cmdBufferSize ∧ _ ↔ _
    rw [Nat.zero_add]
    rfl
  rw [serializeCmd]
  constructor
  · intro built
    obtain ⟨header, first, built⟩ := Option.bind_eq_some_iff.mp built
    obtain ⟨fits, size, contents⟩ := (written header).mp first
    obtain rfl := Option.some.inj built
    refine ⟨fits, size, ?_⟩
    rw [ByteBuffer.bytes_writeIntAtStart contents rfl, contents, length]
  · rintro ⟨fits, size, contents⟩
    let header : ByteBuffer := ⟨cmdBufferSize, [0, 0, 0, 0] ++ afterSize library type channel cmd, length.le.trans fits⟩
    apply Option.bind_eq_some_iff.mpr
    refine ⟨header, (written header).mpr ⟨fits, rfl, rfl⟩, congrArg some (ByteBuffer.ext size.symm ?_)⟩
    rw [ByteBuffer.bytes_writeIntAtStart rfl rfl, contents, length]

theorem serialize_eq_some_iff {type : UInt8} {payload buffer : ByteBuffer} :
    serialize library type channel cmd payload = some buffer ↔
      8 + (library.encode cmd).length + payload.bytes.length ≤ cmdBufferSize ∧
        buffer.size = cmdBufferSize ∧ buffer.bytes = Frame.bytes library ⟨type, channel, cmd, payload.bytes⟩ := by
  have length : (writeInt (8 + (library.encode cmd).length) ++ afterSize library type channel cmd).length = _ :=
    length_afterSize type
  have sized : ∀ header : ByteBuffer,
      header.bytes = writeInt (8 + (library.encode cmd).length) ++ afterSize library type channel cmd →
      (header.writeIntAtStart (header.bytes.length + payload.bytes.length)).bytes =
        writeInt (8 + (library.encode cmd).length + payload.bytes.length) ++ afterSize library type channel cmd := by
    intro header contents
    rw [ByteBuffer.bytes_writeIntAtStart contents rfl, contents, length]
  have sizedLength : (writeInt (8 + (library.encode cmd).length + payload.bytes.length) ++
      afterSize library type channel cmd).length = _ := length_afterSize type
  rw [serialize, bytes_eq_afterSize]
  constructor
  · intro built
    obtain ⟨header, first, built⟩ := Option.bind_eq_some_iff.mp built
    obtain ⟨-, size, contents⟩ := serializeCmd_eq_some_iff.mp first
    obtain ⟨fits, size', contents'⟩ := ByteBuffer.write_eq_some_iff.mp built
    rw [sized header contents] at fits contents'
    rw [sizedLength] at fits
    exact ⟨fits.trans size.le, size'.trans size, contents'⟩
  · rintro ⟨fits, size, contents⟩
    have room : 8 + (library.encode cmd).length ≤ cmdBufferSize := (Nat.le_add_right _ _).trans fits
    let header : ByteBuffer := ⟨cmdBufferSize, writeInt (8 + (library.encode cmd).length) ++ afterSize library type channel cmd,
      length.le.trans room⟩
    apply Option.bind_eq_some_iff.mpr
    refine ⟨header, serializeCmd_eq_some_iff.mpr ⟨room, rfl, rfl⟩, ?_⟩
    apply ByteBuffer.write_eq_some_iff.mpr
    rw [sized header rfl, sizedLength]
    exact ⟨fits, size, contents⟩

theorem sendTransfer_eq_some_iff {buffer : ByteBuffer} : sendTransfer library encoding channel cmd body = some buffer ↔
    (encoding.bodySection body).length ≤ encoding.estimatedMessageSize body ∧
      8 + (library.encode cmd).length + (encoding.bodySection body).length ≤ cmdBufferSize ∧
        buffer.size = cmdBufferSize ∧
          buffer.bytes = Frame.bytes library ⟨0, channel, cmd, encoding.bodySection body⟩ := by
  have written : ∀ payload : ByteBuffer,
      Message.serialize { bodySection := some (encoding.bodySection body) } (encoding.estimatedMessageSize body) = some payload ↔
        (encoding.bodySection body).length ≤ encoding.estimatedMessageSize body ∧
          payload.size = encoding.estimatedMessageSize body ∧ payload.bytes = encoding.bodySection body := by
    intro payload
    rw [Message.serialize, ByteBuffer.foldlM_write_eq_some_iff]
    have sections : (Message.sections { bodySection := some (encoding.bodySection body) }).flatten = encoding.bodySection body :=
      List.append_nil _
    rw [sections]
    show 0 + _ ≤ _ ∧ _ ↔ _
    rw [Nat.zero_add]
    rfl
  rw [sendTransfer]
  constructor
  · intro built
    obtain ⟨payload, first, built⟩ := Option.bind_eq_some_iff.mp built
    obtain ⟨estimated, -, contents⟩ := (written payload).mp first
    rw [serialize_eq_some_iff, contents] at built
    exact ⟨estimated, built⟩
  · rintro ⟨estimated, built⟩
    let payload : ByteBuffer := ⟨encoding.estimatedMessageSize body, encoding.bodySection body, estimated⟩
    apply Option.bind_eq_some_iff.mpr
    exact ⟨payload, (written payload).mpr ⟨estimated, rfl, rfl⟩, serialize_eq_some_iff.mpr built⟩

/-- What is taken out of a frame: what follows the performative, without four bytes. -/
theorem received_bytes (lawful : library.Lawful) (frame : Frame C) : received library (frame.bytes library) =
    some (frame.channel, some frame.cmd, if frame.payload.length > 0 then some (frame.payload.drop 4) else none) := by
  rw [received, decode_bytes lawful]
  rfl

theorem header_pos (encoding : BodyEncoding) (n : Nat) : 0 < (encoding.header n).length := by
  rw [BodyEncoding.header, List.length_append, lengthBytes]
  split_ifs
  · exact Nat.succ_pos _
  · exact Nat.add_pos_right _ (Nat.succ_pos 3)

/-- Four bytes are skipped, so the body is what remains if its header has as many. -/
theorem drop_bodySection_iff : (encoding.bodySection body).drop 4 = body ↔
    (encoding.header body.length).length = 4 ∨ body = [] ∧ (encoding.header 0).length < 4 := by
  rw [BodyEncoding.bodySection]
  constructor
  · intro same
    have lengths := congrArg List.length same
    rw [List.length_drop, List.length_append] at lengths
    by_cases four : (encoding.header body.length).length = 4
    · exact .inl four
    · have empty : body.length = 0 := by omega
      obtain rfl := List.length_eq_zero_iff.mp empty
      exact .inr ⟨rfl, by simp only [List.length_nil] at lengths four ⊢; omega⟩
  · rintro (four | ⟨rfl, short⟩)
    · rw [← four, List.drop_left]
    · rw [List.append_nil]
      exact List.drop_of_length_le short.le

/-- A body is carried exactly if all fits the buffers and its header has the four bytes that are skipped. -/
theorem carries_iff (lawful : library.Lawful) (encoding : BodyEncoding) (channel : UInt16) (cmd : C) (body : List UInt8) :
    Carries library encoding channel cmd body ↔ CanCarry library encoding cmd body := by
  have filled : (encoding.bodySection body).length > 0 := by
    rw [BodyEncoding.bodySection, List.length_append]
    exact Nat.add_pos_left (header_pos encoding _) _
  constructor
  · rintro ⟨buffer, sent, -, taken⟩
    obtain ⟨estimated, fits, -, bytes⟩ := sendTransfer_eq_some_iff.mp sent
    rw [bytes, received_bytes lawful, if_pos filled] at taken
    have body : (encoding.bodySection body).drop 4 = body := by simpa using taken
    exact ⟨estimated, fits, drop_bodySection_iff.mp body⟩
  · rintro ⟨estimated, fits, header⟩
    let frame : Frame C := ⟨0, channel, cmd, encoding.bodySection body⟩
    have length : (frame.bytes library).length = 8 + (library.encode cmd).length + (encoding.bodySection body).length :=
      length_bytes frame
    refine ⟨⟨cmdBufferSize, frame.bytes library, length.le.trans fits⟩,
      sendTransfer_eq_some_iff.mpr ⟨estimated, fits, rfl, rfl⟩, ?_, ?_⟩
    · show (frame.bytes library).take 4 = writeInt (frame.bytes library).length
      rw [length, bytes_eq_afterSize, List.append_assoc]
      rfl
    · rw [received_bytes lawful, if_pos filled, drop_bodySection_iff.mpr header]

end

/-! ## A text -/

/-- A library of one performative, the transfer of delivery 0 on the link with handle 0. -/
def transferLibrary : AmqpLibrary Unit where
  encode _ := [0x00, 0x53, 0x14, 0xC0, 0x03, 0x02, 0x43, 0x43]
  readDescribed
    | 0x00 :: 0x53 :: 0x14 :: 0xC0 :: 0x03 :: 0x02 :: 0x43 :: 0x43 :: rest => some ((), rest)
    | _ => none
  name _ := "amqp:transfer:list"

theorem transferLibrary_lawful : transferLibrary.Lawful where
  encoded _ := by simp [transferLibrary]
  complete _ _ := rfl
  more buffer cmd rest others reads := by
    simp only [transferLibrary] at reads ⊢
    split at reads
    next tail =>
      obtain ⟨-, rfl⟩ := Prod.mk.inj (Option.some.inj reads)
      rfl
    next => cases reads

/-- The value of a text: its descriptor, and the code of a short or of a long string. -/
def textValue : BodyEncoding where
  descriptor n := [0x00, 0x53, 0x77, if n < 256 then 0xA1 else 0xB1]
  estimatedMessageSize body := body.length + 8

/-- A short or a long binary with the number 0 for its descriptor, which has a code of its own. -/
def describedByZero : BodyEncoding where
  descriptor n := [0x00, 0x44, if n < 256 then 0xA0 else 0xB0]
  estimatedMessageSize body := body.length + 8

/-- As short a header is skipped as a whole. -/
theorem carries_describedByZero : Carries transferLibrary describedByZero 1 () [104, 105] :=
  (carries_iff transferLibrary_lawful describedByZero 1 () [104, 105]).mpr ⟨by decide, by decide, by decide⟩

/-- The length of a short text is taken for its first byte. -/
theorem not_carries_hi : ¬ Carries transferLibrary textValue 1 () [104, 105] := by
  rintro ⟨buffer, sent, -, taken⟩
  have kept : (sendTransfer transferLibrary textValue 1 () [104, 105]).bind (fun b => received transferLibrary b.bytes) =
      some (1, some (), some [2, 104, 105]) := by
    decide
  rw [sent, Option.bind_some, taken] at kept
  revert kept
  decide

end FaasNet.EventMesh.AMQP
