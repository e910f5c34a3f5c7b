import FaasNet.Lib.Base64
import FaasNet.RaftConsensus.BufferContext

/-!
# `CloudEventExtensions`

How a `CloudEvent` goes over the wire, and into the log and the queues as base64 text. `CloudEvent`,
`JsonEventFormatter` and the text of an attribute's value belong to the library the source uses; what
is called of it is a parameter. The length of the data goes into one byte, so that an event arrives
only when its encoded data is shorter than 256 bytes. And a timestamp is always set as the `time` of the
event, whatever attribute it was.
-/

namespace FaasNet.EventMesh

open FaasNet.Lib FaasNet.RaftConsensus WriteBufferContext ReadBufferContext

/-- A populated attribute: the `Name` of the attribute, the `Name` of its type and its value. -/
structure CloudEventAttribute (V : Type) where
  name : String
  type : String
  value : V
  deriving DecidableEq, Repr

/-- `CloudEvent`: its data and its populated attributes, in the order they were set first. -/
@[ext] structure CloudEvent (D V : Type) where
  data : D
  attributes : List (CloudEventAttribute V)
  distinct : (attributes.map (·.name)).Nodup
  deriving DecidableEq

/-- What the source calls of the library. The formatter encodes and decodes by the content type of the event, which is one
of its attributes. `none` is an exception. -/
structure CloudEventLibrary (D V : Type) where
  encodeBinaryModeEventData : CloudEvent D V → List UInt8
  /-- The data that an event with these attributes is given. -/
  decodeBinaryModeEventData : List UInt8 → List (CloudEventAttribute V) → Option D
  /-- `property.Value.ToString()`. -/
  text : V → String
  /-- `DateTime.Parse`, as a value of the attribute `time`. -/
  parse : String → Option V
  /-- The type and the value `SetAttributeFromString` gives the attribute of that name. -/
  setAttributeFromString : String → String → Option (String × V)

section
variable {D V : Type}

namespace CloudEvent

/-- `cloudEvent[attribute] = value`. -/
def setAttributes (attributes : List (CloudEventAttribute V)) (attr : CloudEventAttribute V) :
    List (CloudEventAttribute V) :=
  if attr.name ∈ attributes.map (·.name) then
    attributes.map fun a => if a.name = attr.name then attr else a
  else attributes ++ [attr]

theorem nodup_setAttributes {attributes : List (CloudEventAttribute V)}
    (distinct : (attributes.map (·.name)).Nodup) (attr : CloudEventAttribute V) :
    ((setAttributes attributes attr).map (·.name)).Nodup := by
  unfold setAttributes
  split
  next known =>
    have names : (attributes.map fun a => if a.name = attr.name then attr else a).map (·.name) =
        attributes.map (·.name) := by
      rw [List.map_map]
      refine List.map_congr_left fun a _ => ?_
      by_cases same : a.name = attr.name <;> simp [same]
    rwa [names]
  next new =>
    rw [List.map_append, List.map_singleton]
    refine List.nodup_append.mpr ⟨distinct, by simp, fun name known other single => ?_⟩
    rw [List.mem_singleton.mp single]
    exact ne_of_mem_of_not_mem known new

def setAttribute (cloudEvt : CloudEvent D V) (attr : CloudEventAttribute V) : CloudEvent D V :=
  ⟨cloudEvt.data, setAttributes cloudEvt.attributes attr, nodup_setAttributes cloudEvt.distinct attr⟩

@[simp] theorem foldl_setAttribute_data (cloudEvt : CloudEvent D V) (attributes : List (CloudEventAttribute V)) :
    (attributes.foldl setAttribute cloudEvt).data = cloudEvt.data := by
  induction attributes generalizing cloudEvt with
  | nil => rfl
  | cons attr attributes ih => exact ih (cloudEvt.setAttribute attr)

theorem mem_setAttributes {attributes : List (CloudEventAttribute V)} {attr other : CloudEventAttribute V}
    (member : other ∈ setAttributes attributes attr) : other ∈ attributes ∨ other = attr := by
  unfold setAttributes at member
  split at member
  next =>
    obtain ⟨old, inside, rfl⟩ := List.mem_map.mp member
    split
    · exact .inr rfl
    · exact .inl inside
  next => simpa using member

/-- Only what is set is there. -/
theorem mem_foldl_setAttribute {cloudEvt : CloudEvent D V} {attributes : List (CloudEventAttribute V)}
    {attr : CloudEventAttribute V} (member : attr ∈ (attributes.foldl setAttribute cloudEvt).attributes) :
    attr ∈ cloudEvt.attributes ∨ attr ∈ attributes := by
  induction attributes generalizing cloudEvt with
  | nil => exact .inl member
  | cons first attributes ih =>
    rcases ih member with before | later
    · rcases mem_setAttributes before with old | rfl
      · exact .inl old
      · exact .inr List.mem_cons_self
    · exact .inr (List.mem_cons_of_mem first later)

/-- Attributes of other names come after those that are there. -/
theorem foldl_setAttribute_attributes {cloudEvt : CloudEvent D V} {attributes : List (CloudEventAttribute V)}
    (distinct : ((cloudEvt.attributes ++ attributes).map (·.name)).Nodup) :
    (attributes.foldl setAttribute cloudEvt).attributes = cloudEvt.attributes ++ attributes := by
  induction attributes generalizing cloudEvt with
  | nil => simp
  | cons attr attributes ih =>
    have new : attr.name ∉ cloudEvt.attributes.map (·.name) := by
      rw [List.map_append, List.nodup_append] at distinct
      intro known
      exact distinct.2.2 _ known attr.name (by simp) rfl
    have next : (cloudEvt.setAttribute attr).attributes = cloudEvt.attributes ++ [attr] := if_neg new
    rw [List.foldl_cons, ih, next, List.append_assoc, List.singleton_append]
    rwa [next, List.append_assoc, List.singleton_append]

end CloudEvent

/-! ## Writing and reading -/

namespace CloudEventLibrary

variable (lib : CloudEventLibrary D V)

def serializeAttribute (attr : CloudEventAttribute V) : List UInt8 :=
  writeString attr.name ++ writeString attr.type ++ writeString (lib.text attr.value)

def serialize (cloudEvent : CloudEvent D V) : List UInt8 :=
  writeByteArray (lib.encodeBinaryModeEventData cloudEvent)
    ++ writeMany lib.serializeAttribute cloudEvent.attributes

def serializeBase64 (cloudEvent : CloudEvent D V) : List Char := Base64.encode (lib.serialize cloudEvent)

/-- One turn of the loop: the attribute that is set. -/
def nextAttribute : Reader UInt8 (CloudEventAttribute V) := do
  let attrName ← nextString
  let type ← nextString
  let attrValue ← nextString
  Reader.require <|
    if type = "Timestamp" then (lib.parse attrValue).map fun time => ⟨"time", "Timestamp", time⟩
    else (lib.setAttributeFromString attrName attrValue).map fun typed => ⟨attrName, typed.1, typed.2⟩

def deserializeCloudEvent : Reader UInt8 (CloudEvent D V) := do
  let cloudEventPayload ← nextByteArray
  -- the event has no attributes yet
  let data ← Reader.require (lib.decodeBinaryModeEventData cloudEventPayload [])
  let attributes ← nextMany lib.nextAttribute
  pure (attributes.foldl CloudEvent.setAttribute ⟨data, [], by simp⟩)

/-- `Convert.FromBase64String(message).DeserializeCloudEvent()`, with what is left of the bytes. -/
def deserializeBase64 (message : List Char) : Option (CloudEvent D V × List UInt8) :=
  (Base64.decode message).bind lib.deserializeCloudEvent

/-! ## What is assumed of the library -/

/-- Encode and decode are inverse for the event, which is decoded into one without attributes. -/
def IsInverseBare (cloudEvent : CloudEvent D V) : Prop :=
  ∀ payload, lib.decodeBinaryModeEventData payload [] = some cloudEvent.data ↔
    payload = lib.encodeBinaryModeEventData cloudEvent

/-- The attribute is ASCII and its value comes back from its text. -/
structure AttributeRoundTrips (attr : CloudEventAttribute V) : Prop where
  name : IsText attr.name
  type : IsText attr.type
  text : IsText (lib.text attr.value)
  time : attr.type = "Timestamp" → lib.parse (lib.text attr.value) = some attr.value
  typed : attr.type ≠ "Timestamp" →
    lib.setAttributeFromString attr.name (lib.text attr.value) = some (attr.type, attr.value)

structure AttributesRoundTrip (cloudEvent : CloudEvent D V) : Prop where
  count : IsCount cloudEvent.attributes.length
  each : ∀ attr ∈ cloudEvent.attributes, lib.AttributeRoundTrips attr

/-! ## Reading an event back -/

variable {lib}

/-- The attribute that is set for one that was written. -/
def receivedAttribute (attr : CloudEventAttribute V) : CloudEventAttribute V :=
  if attr.type = "Timestamp" then { attr with name := "time" } else attr

theorem reads_attribute {attr : CloudEventAttribute V} (roundTrips : lib.AttributeRoundTrips attr) :
    Reads lib.nextAttribute (lib.serializeAttribute attr) (receivedAttribute attr) := by
  rw [serializeAttribute, List.append_assoc]
  refine (reads_string roundTrips.name).bind <| (reads_string roundTrips.type).bind <|
    (reads_string roundTrips.text).lookup ?_
  unfold receivedAttribute
  split
  next timestamp => rw [roundTrips.time timestamp, Option.map_some, ← timestamp]
  next other => rw [roundTrips.typed other, Option.map_some]

/-- The event that is read for one whose data fits. -/
def received (cloudEvent : CloudEvent D V) : CloudEvent D V :=
  (cloudEvent.attributes.map receivedAttribute).foldl CloudEvent.setAttribute ⟨cloudEvent.data, [], by simp⟩

theorem reads_received {cloudEvent : CloudEvent D V} (inverse : lib.IsInverseBare cloudEvent)
    (roundTrip : lib.AttributesRoundTrip cloudEvent)
    (fits : (lib.encodeBinaryModeEventData cloudEvent).length < 256) :
    Reads lib.deserializeCloudEvent (lib.serialize cloudEvent) (received cloudEvent) := by
  have data := (inverse _).mpr rfl
  have attributes : Reads (nextMany lib.nextAttribute) (writeMany lib.serializeAttribute cloudEvent.attributes)
      (cloudEvent.attributes.map receivedAttribute) :=
    reads_many_as roundTrip.count fun attr member => reads_attribute (roundTrip.each attr member)
  refine (reads_byteArray fits).bind ?_
  intro rest
  rw [Reader.bind_eq_some]
  exact ⟨cloudEvent.data, _, Reader.require_eq_some.mpr ⟨data, rfl⟩, attributes.map rest⟩

/-- The data is read back only when its length fits into the byte before it. -/
theorem fits_of_deserialize {cloudEvent : CloudEvent D V} (inverse : lib.IsInverseBare cloudEvent) {rest : List UInt8}
    (read : lib.deserializeCloudEvent (lib.serialize cloudEvent) = some (cloudEvent, rest)) :
    (lib.encodeBinaryModeEventData cloudEvent).length < 256 := by
  obtain ⟨payload, _, first, tail⟩ := Reader.bind_eq_some.mp read
  obtain ⟨data, _, decoded, tail⟩ := Reader.bind_eq_some.mp tail
  obtain ⟨attributes, _, -, made⟩ := Reader.bind_eq_some.mp tail
  have same : data = cloudEvent.data := by
    rw [← (Reader.pure_eq_some.mp made).1, CloudEvent.foldl_setAttribute_data]
  obtain rfl : payload = lib.encodeBinaryModeEventData cloudEvent :=
    (inverse payload).mp (same ▸ (Reader.require_eq_some.mp decoded).1)
  obtain ⟨size, _, -, payload⟩ := Reader.bind_eq_some.mp first
  rw [(Reader.times_item_eq_some.mp payload).2]
  exact size.toNat_lt

/-- Every timestamp of the event is its `time`. -/
def TimestampsAreTime (cloudEvent : CloudEvent D V) : Prop :=
  ∀ attr ∈ cloudEvent.attributes, attr.type = "Timestamp" → attr.name = "time"

theorem received_eq_iff (cloudEvent : CloudEvent D V) :
    received cloudEvent = cloudEvent ↔ TimestampsAreTime cloudEvent := by
  constructor
  · intro same attr member timestamp
    rw [← same] at member
    have member := (CloudEvent.mem_foldl_setAttribute member).resolve_left List.not_mem_nil
    obtain ⟨written, -, rfl⟩ := List.mem_map.mp member
    unfold receivedAttribute at timestamp ⊢
    split
    next => rfl
    next other => rw [if_neg other] at timestamp; exact absurd timestamp other
  · intro allTime
    have unchanged : ∀ attr ∈ cloudEvent.attributes, receivedAttribute attr = id attr := by
      intro attr member
      unfold receivedAttribute
      split
      next timestamp => rw [← allTime attr member timestamp]; rfl
      next => rfl
    rw [received, List.map_congr_left unchanged, List.map_id]
    apply CloudEvent.ext
    · exact CloudEvent.foldl_setAttribute_data _ _
    · exact CloudEvent.foldl_setAttribute_attributes cloudEvent.distinct

end CloudEventLibrary

/-! ## When an event arrives -/

namespace CloudEventLibrary

variable {lib : CloudEventLibrary D V} {cloudEvent : CloudEvent D V}

/-- The data is encoded in fewer than 256 bytes, and no timestamp is an attribute of another name. -/
structure FitsTheWire (lib : CloudEventLibrary D V) (cloudEvent : CloudEvent D V) : Prop where
  data : (lib.encodeBinaryModeEventData cloudEvent).length < 256
  timestamps : TimestampsAreTime cloudEvent

theorem FitsTheWire.reads (fits : lib.FitsTheWire cloudEvent) (inverse : lib.IsInverseBare cloudEvent)
    (roundTrip : lib.AttributesRoundTrip cloudEvent) :
    Reads lib.deserializeCloudEvent (lib.serialize cloudEvent) cloudEvent := by
  have read := reads_received inverse roundTrip fits.data
  rwa [(received_eq_iff cloudEvent).mpr fits.timestamps] at read

theorem fitsTheWire_of_deserialize (inverse : lib.IsInverseBare cloudEvent) (roundTrip : lib.AttributesRoundTrip cloudEvent)
    (read : lib.deserializeCloudEvent (lib.serialize cloudEvent) = some (cloudEvent, [])) :
    lib.FitsTheWire cloudEvent := by
  have fits := fits_of_deserialize inverse read
  have both := (reads_received inverse roundTrip fits).eq_some.symm.trans read
  have same : received cloudEvent = cloudEvent := by simpa using both
  exact ⟨fits, (received_eq_iff cloudEvent).mp same⟩

theorem deserializeBase64_serializeBase64 (lib : CloudEventLibrary D V) (cloudEvent : CloudEvent D V) :
    lib.deserializeBase64 (lib.serializeBase64 cloudEvent) = lib.deserializeCloudEvent (lib.serialize cloudEvent) := by
  rw [deserializeBase64, serializeBase64, Base64.decode_encode, Option.bind_some]

end CloudEventLibrary

end

/-- The library on data given by its JSON text and on attributes given by theirs, where an attribute is a
string or a time. -/
def CloudEventLibrary.onTexts : CloudEventLibrary (List UInt8) String where
  encodeBinaryModeEventData := fun cloudEvent => cloudEvent.data
  decodeBinaryModeEventData := fun payload _ => some payload
  text := id
  parse := some
  setAttributeFromString := fun name value => if name = "" then none else some ("String", value)

theorem CloudEventLibrary.onTexts_isInverseBare (cloudEvent : CloudEvent (List UInt8) String) :
    onTexts.IsInverseBare cloudEvent := fun _ => Option.some_inj

/-- An event whose data is a number of one digit. -/
def numberEvent : CloudEvent (List UInt8) String where
  data := [49]
  attributes := [⟨"id", "String", "1"⟩, ⟨"time", "Timestamp", "01/01/2022 00:00:00 +00:00"⟩]
  distinct := by decide

theorem numberEvent_roundTrip : CloudEventLibrary.onTexts.AttributesRoundTrip numberEvent where
  count := by decide
  each := by
    intro attr member
    rcases List.mem_cons.mp member with rfl | member
    · exact ⟨by decide, by decide, by decide, by decide, fun _ => rfl⟩
    · obtain rfl := List.mem_singleton.mp member
      exact ⟨by decide, by decide, by decide, fun _ => rfl, by decide⟩

end FaasNet.EventMesh
