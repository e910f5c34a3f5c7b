import FaasNet.EventMesh.PackageRoundTrip
import FaasNet.RaftConsensus.GossipCodec

/-!
# What a datagram can be read as

The three `Deserialize` trust the count before a list. Most elements take at least a byte, so that a list
cannot be longer than the datagram. But a string is read off an empty queue as the empty string, and where
the elements of a list are nothing but strings the count alone decides. This is so for three messages of
the event mesh.
-/

namespace FaasNet.EventMesh.Client

open FaasNet.Lib FaasNet.RaftConsensus ReadBufferContext

/-! ## Strings one after the other -/

/-- The bytes are whole strings, one after the other. -/
inductive WholeStrings : List UInt8 → Prop
  | nil : WholeStrings []
  | cons {buffer rest : List UInt8} {str : String} (first : getString buffer = some (str, rest))
    (others : WholeStrings rest) : WholeStrings buffer

/-- Off whole strings the reader reads whole strings. -/
structure ReadsStrings {α : Type} (r : Reader UInt8 α) : Prop where
  onward : ∀ {buffer}, WholeStrings buffer → ∃ a rest, r buffer = some (a, rest) ∧ WholeStrings rest
  back : ∀ {buffer rest a}, r buffer = some (a, rest) → WholeStrings rest → WholeStrings buffer

namespace ReadsStrings

variable {α β : Type}

theorem pure (a : α) : ReadsStrings (Pure.pure a : Reader UInt8 α) where
  onward := fun {buffer} whole => ⟨a, buffer, rfl, whole⟩
  back := by
    intro buffer rest c read whole
    obtain ⟨-, rfl⟩ := Reader.pure_eq_some.mp read
    exact whole

theorem bind {r : Reader UInt8 α} {f : α → Reader UInt8 β} (first : ReadsStrings r)
    (second : ∀ a, ReadsStrings (f a)) : ReadsStrings (r >>= f) where
  onward := by
    intro buffer whole
    obtain ⟨a, between, head, whole⟩ := first.onward whole
    obtain ⟨b, rest, tail, whole⟩ := (second a).onward whole
    exact ⟨b, rest, Reader.bind_eq_some.mpr ⟨a, between, head, tail⟩, whole⟩
  back := by
    intro buffer rest b read whole
    obtain ⟨a, between, head, tail⟩ := Reader.bind_eq_some.mp read
    exact first.back head ((second a).back tail whole)

theorem string : ReadsStrings nextString where
  onward := by
    intro buffer whole
    cases whole with
    | nil => exact ⟨"", [], rfl, .nil⟩
    | @cons _ rest str first others =>
      have filled : buffer ≠ [] := by
        rintro rfl
        exact nomatch first
      exact ⟨str, rest, (nextString_of_ne_nil filled).trans first, others⟩
  back := by
    intro buffer rest str read whole
    by_cases empty : buffer = []
    · rw [empty]
      exact .nil
    · rw [nextString_of_ne_nil empty] at read
      exact .cons read whole

/-- A loop over whole strings goes on as long as it is asked to. -/
theorem times {r : Reader UInt8 α} (strings : ReadsStrings r) (n : Nat) : ReadsStrings (Reader.times n r) := by
  induction n with
  | zero => exact pure []
  | succ n ih => exact strings.bind fun a => ih.bind fun as => pure (a :: as)

end ReadsStrings

/-- The reader takes something off a queue that holds something. -/
def Takes {α : Type} (r : Reader UInt8 α) : Prop :=
  ∀ {buffer rest a}, r buffer = some (a, rest) → buffer ≠ [] → rest.length < buffer.length

theorem takes_string : Takes nextString := by
  intro buffer rest str read filled
  rw [nextString_of_ne_nil filled] at read
  have paid : str.length + 4 + rest.length ≤ buffer.length := pays_getString buffer rest str read
  omega

/-- A loop of more turns than there are bytes comes to the end of the queue. -/
theorem whole_of_times {α : Type} {r : Reader UInt8 α} (strings : ReadsStrings r) (takes : Takes r) {n : Nat}
    {buffer rest : List UInt8} {as : List α} (read : Reader.times n r buffer = some (as, rest))
    (short : buffer.length < n) : WholeStrings buffer := by
  induction n generalizing buffer rest as with
  | zero => omega
  | succ n ih =>
    by_cases empty : buffer = []
    · rw [empty]
      exact .nil
    · obtain ⟨a, between, head, tail⟩ := Reader.bind_eq_some.mp read
      obtain ⟨bs, _, others, made⟩ := Reader.bind_eq_some.mp tail
      obtain ⟨-, rfl⟩ := Reader.pure_eq_some.mp made
      have fewer := takes head empty
      exact strings.back head (ih others (by omega))

/-! ## Events -/

section
variable {D V : Type}

/-- The characters of the strings in the data of an event and in the value of an attribute. -/
structure EventSizes (D V : Type) where
  data : D → Nat
  value : V → Nat

/-- What the library decodes is no longer than what it decodes it from, and an attribute has a name. -/
structure EventSizes.Bounds (sizes : EventSizes D V) (lib : CloudEventLibrary D V) : Prop where
  data : ∀ payload attributes data, lib.decodeBinaryModeEventData payload attributes = some data →
    sizes.data data ≤ payload.length
  time : ∀ text value, lib.parse text = some value → sizes.value value ≤ text.length
  value : ∀ name text typed, lib.setAttributeFromString name text = some typed → sizes.value typed.2 ≤ text.length
  name : ∀ text, lib.setAttributeFromString "" text = none

/-- The characters of an attribute. -/
def EventSizes.attribute (sizes : EventSizes D V) (attr : CloudEventAttribute V) : Nat :=
  attr.name.length + sizes.value attr.value

/-- The characters of an event. -/
def EventSizes.event (sizes : EventSizes D V) (cloudEvent : CloudEvent D V) : Nat :=
  sizes.data cloudEvent.data + (cloudEvent.attributes.map sizes.attribute).sum

/-- An attribute that is replaced costs what the new one does, at most in addition. -/
theorem sum_replace {attributes : List (CloudEventAttribute V)} (distinct : (attributes.map (·.name)).Nodup)
    (attr : CloudEventAttribute V) (cost : CloudEventAttribute V → Nat) :
    ((attributes.map fun a => if a.name = attr.name then attr else a).map cost).sum ≤
      (attributes.map cost).sum + cost attr := by
  induction attributes with
  | nil => simp
  | cons first attributes ih =>
    obtain ⟨new, distinct⟩ := List.nodup_cons.mp distinct
    simp only [List.map_cons, List.sum_cons]
    by_cases same : first.name = attr.name
    · have others : ∀ a ∈ attributes, (if a.name = attr.name then attr else a) = id a := by
        intro a member
        exact if_neg fun again => new (List.mem_map.mpr ⟨a, member, again.trans same.symm⟩)
      rw [List.map_congr_left others, List.map_id, if_pos same]
      omega
    · rw [if_neg same]
      have rest := ih distinct
      omega

/-- An attribute that is set costs at most what it costs itself. -/
theorem sum_setAttributes {attributes : List (CloudEventAttribute V)} (distinct : (attributes.map (·.name)).Nodup)
    (attr : CloudEventAttribute V) (cost : CloudEventAttribute V → Nat) :
    ((CloudEvent.setAttributes attributes attr).map cost).sum ≤ (attributes.map cost).sum + cost attr := by
  unfold CloudEvent.setAttributes
  split
  · exact sum_replace distinct attr cost
  · simp

/-- An attribute that is set adds at most its own cost. -/
theorem sum_foldl_setAttribute (cloudEvt : CloudEvent D V) (attributes : List (CloudEventAttribute V))
    (cost : CloudEventAttribute V → Nat) :
    ((attributes.foldl CloudEvent.setAttribute cloudEvt).attributes.map cost).sum ≤
      (cloudEvt.attributes.map cost).sum + (attributes.map cost).sum := by
  induction attributes generalizing cloudEvt with
  | nil => simp
  | cons attr attributes ih =>
    have rest := ih (cloudEvt.setAttribute attr)
    have first := sum_setAttributes cloudEvt.distinct attr cost
    simp only [List.foldl_cons, List.map_cons, List.sum_cons, CloudEvent.setAttribute] at rest ⊢
    omega

/-- Attributes that are set add at most one each. -/
theorem length_foldl_setAttribute (cloudEvt : CloudEvent D V) (attributes : List (CloudEventAttribute V)) :
    (attributes.foldl CloudEvent.setAttribute cloudEvt).attributes.length ≤
      cloudEvt.attributes.length + attributes.length := by
  simpa using sum_foldl_setAttribute cloudEvt attributes fun _ => 1

/-- A string that is not empty costs its length too. -/
theorem pays_string_filled : Pays nextString fun str => if str = "" then 0 else str.length + 4 := by
  intro buffer rest str read
  by_cases empty : buffer = []
  · obtain ⟨rfl, rfl⟩ : "" = str ∧ [] = rest := by simpa [nextString, empty] using read
    simp
  · rw [nextString_of_ne_nil empty] at read
    have paid : str.length + 4 + rest.length ≤ buffer.length := pays_getString buffer rest str read
    change (if str = "" then 0 else str.length + 4) + rest.length ≤ buffer.length
    split <;> omega

variable {lib : CloudEventLibrary D V} {sizes : EventSizes D V}

theorem pays_attribute (bounds : sizes.Bounds lib) :
    Pays lib.nextAttribute fun attr => sizes.attribute attr + 1 := by
  refine pays_string_filled.bind fun name => pays_string.bind fun type => pays_string.bind fun text =>
    Pays.require fun attr made => ?_
  split at made
  next timestamp =>
    obtain ⟨value, parsed, rfl⟩ := Option.map_eq_some_iff.mp made
    have fits := bounds.time text value parsed
    have letters : type.length = 9 := by rw [timestamp]; decide
    simp only [EventSizes.attribute, show "time".length = 4 by decide]
    omega
  next other =>
    obtain ⟨typed, parsed, rfl⟩ := Option.map_eq_some_iff.mp made
    have fits := bounds.value name text typed parsed
    have named : name ≠ "" := by
      rintro rfl
      rw [bounds.name] at parsed
      exact nomatch parsed
    simp only [EventSizes.attribute, if_neg named]
    omega

theorem pays_byteArray : Pays nextByteArray List.length := by
  refine Pays.item.bind fun size => (pays_dequeue _).mono fun payload => ?_
  omega

theorem pays_event (bounds : sizes.Bounds lib) :
    Pays lib.deserializeCloudEvent fun cloudEvent => sizes.event cloudEvent + cloudEvent.attributes.length := by
  intro buffer rest cloudEvent read
  obtain ⟨payload, afterPayload, first, tail⟩ := Reader.bind_eq_some.mp read
  obtain ⟨data, _, decoded, tail⟩ := Reader.bind_eq_some.mp tail
  obtain ⟨found, rfl⟩ := Reader.require_eq_some.mp decoded
  obtain ⟨attributes, _, many, made⟩ := Reader.bind_eq_some.mp tail
  obtain ⟨rfl, rfl⟩ := Reader.pure_eq_some.mp made
  have payloadPaid := pays_byteArray buffer afterPayload payload first
  have dataPaid := bounds.data payload [] data found
  have attributesPaid := pays_elements (pays_attribute bounds) afterPayload _ attributes many
  have characters := sum_foldl_setAttribute ⟨data, [], by simp⟩ attributes sizes.attribute
  have count := length_foldl_setAttribute ⟨data, [], by simp⟩ attributes
  simp only [EventSizes.event, CloudEvent.foldl_setAttribute_data, List.map_nil, List.sum_nil, List.length_nil] at *
  omega

/-! ## Messages -/

/-- The characters of some strings. -/
def characters (strings : List String) : Nat := (strings.map String.length).sum

@[simp] theorem characters_nil : characters [] = 0 := rfl

@[simp] theorem characters_cons (str : String) (strings : List String) :
    characters (str :: strings) = str.length + characters strings := rfl

theorem characters_flatMap {α : Type} (f : α → List String) (l : List α) :
    characters (l.flatMap f) = (l.map fun a => characters (f a)).sum := by
  induction l with
  | nil => rfl
  | cons a l ih =>
    rw [List.flatMap_cons, List.map_cons, List.sum_cons, ← ih]
    simp [characters]

theorem pays_userAgent : Pays UserAgent.deserialize fun userAgent => characters userAgent.strings := by
  refine pays_string.bind fun _ => pays_string.bind fun _ => pays_string.bind fun _ => pays_int.bind fun _ =>
    pays_string.bind fun _ => pays_string.bind fun _ => UserAgentPurpose.pays.bind fun _ => pays_int.bind fun _ =>
    pays_boolean.bind fun _ => pays_timeSpan.bind fun _ => Pays.pure ?_
  simp only [UserAgent.strings, characters_cons, characters_nil]
  omega

theorem pays_bridge : Pays BridgeServerResponse.deserialize fun server => characters server.strings + 1 := by
  refine pays_string.bind fun _ => pays_string.bind fun _ => pays_int.bind fun _ => pays_string.bind fun _ =>
    pays_string.bind fun _ => Pays.pure ?_
  simp only [BridgeServerResponse.strings, characters_cons, characters_nil]
  omega

theorem pays_plugin : Pays PluginResponse.extract fun plugin => characters plugin.strings + 1 := by
  refine pays_string.bind fun _ => pays_string.bind fun _ => pays_boolean.bind fun _ => Pays.pure ?_
  simp only [PluginResponse.strings, characters_cons, characters_nil]
  omega

theorem pays_record : Pays PluginConfigurationRecordResponse.extract fun record => characters record.strings := by
  refine pays_string.bind fun _ => pays_string.bind fun _ => pays_string.bind fun _ => pays_string.bind fun _ =>
    Pays.pure ?_
  simp only [PluginConfigurationRecordResponse.strings, characters_cons, characters_nil]
  omega

/-- The characters of a message. -/
def EventSizes.body (sizes : EventSizes D V) (body : Body (CloudEvent D V)) : Nat :=
  characters body.strings + (body.event.map sizes.event).getD 0

/-- The length of a list whose elements take bytes. -/
def paidElements : Body (CloudEvent D V) → Nat
  | .addClientRequest _ _ purposes => purposes.length
  | .getAllBridgeResponse servers => servers.length
  | .getAllPluginsResponse plugins => plugins.length
  | body => (body.event.map fun cloudEvent => cloudEvent.attributes.length).getD 0

theorem pays_strings : Pays (nextMany nextString) characters := pays_many pays_string

/-- A message of one string. -/
theorem pays_ofString {make : String → Body (CloudEvent D V)}
    (size : ∀ str, sizes.body (make str) + paidElements (make str) = str.length) :
    Pays (nextString >>= fun str => pure (make str)) fun body => sizes.body body + paidElements body := by
  refine pays_string.bind fun str => Pays.pure ?_
  have := size str
  omega

theorem pays_extract (bounds : sizes.Bounds lib) (status : HeaderStatus) (cmd : Commands) :
    Pays (Body.extract lib status cmd) fun body => sizes.body body + paidElements body := by
  have purposes : Pays UserAgentPurpose.deserialize fun _ => 0 + 1 := UserAgentPurpose.pays.mono fun _ => by omega
  cases cmd with
  | HELLO_REQUEST =>
    refine pays_userAgent.bind fun _ => Pays.pure ?_
    simp [EventSizes.body, Body.strings, Body.event, paidElements]
  | SUBSCRIBE_REQUEST =>
    refine pays_string.bind fun _ => pays_string.bind fun _ => pays_strings.bind fun _ => Pays.pure ?_
    simp [EventSizes.body, Body.strings, Body.event, paidElements]
  | ADD_CLIENT_REQUEST =>
    refine pays_string.bind fun _ => pays_string.bind fun _ => (pays_elements purposes).bind fun _ => Pays.pure ?_
    simp [EventSizes.body, Body.strings, Body.event, paidElements]
    omega
  | SUBSCRIBE_RESPONSE => exact pays_ofString fun _ => rfl
  | DISCONNECT_REQUEST =>
    refine pays_string.bind fun _ => pays_string.bind fun _ => Pays.pure ?_
    simp [EventSizes.body, Body.strings, Body.event, paidElements]
  | HELLO_RESPONSE => exact pays_ofString fun _ => rfl
  | PUBLISH_MESSAGE_REQUEST =>
    refine pays_string.bind fun _ => pays_string.bind fun _ => (pays_event bounds).bind fun _ => Pays.pure ?_
    simp [EventSizes.body, Body.strings, Body.event, paidElements]
    omega
  | GET_ALL_VPNS_RESPONSE =>
    refine pays_strings.bind fun _ => Pays.pure ?_
    simp [EventSizes.body, Body.strings, Body.event, paidElements]
  | ADD_VPN_REQUEST => exact pays_ofString fun _ => rfl
  | READ_NEXT_MESSAGE_REQUEST =>
    refine pays_string.bind fun _ => pays_string.bind fun _ => Pays.pure ?_
    simp [EventSizes.body, Body.strings, Body.event, paidElements]
  | READ_NEXT_MESSAGE_RESPONSE =>
    refine pays_boolean.bind fun containsMessage => ?_
    cases containsMessage with
    | false => exact Pays.pure rfl
    | true =>
      refine (pays_event bounds).bind fun _ => pays_int.bind fun _ => Pays.pure ?_
      simp [EventSizes.body, Body.strings, Body.event, paidElements]
  | READ_TOPIC_MESSAGE_REQUEST =>
    refine pays_string.bind fun _ => pays_int.bind fun _ => Pays.pure ?_
    simp [EventSizes.body, Body.strings, Body.event, paidElements]
  | READ_TOPIC_MESSAGE_RESPONSE =>
    refine pays_string.bind fun _ => pays_int.bind fun _ => pays_boolean.bind fun containsMessage => ?_
    cases containsMessage with
    | false =>
      refine Pays.pure ?_
      simp [EventSizes.body, Body.strings, Body.event, paidElements]
    | true =>
      refine (pays_event bounds).bind fun _ => Pays.pure ?_
      simp [EventSizes.body, Body.strings, Body.event, paidElements]
      omega
  | ADD_BRIDGE_REQUEST =>
    refine pays_string.bind fun _ => pays_string.bind fun _ => pays_string.bind fun _ => pays_int.bind fun _ =>
      pays_string.bind fun _ => Pays.pure ?_
    simp [EventSizes.body, Body.strings, Body.event, paidElements]
  | GET_ALL_BRIDGE_VPN_RESPONSE =>
    refine (pays_elements pays_bridge).bind fun _ => Pays.pure ?_
    simp [EventSizes.body, Body.strings, Body.event, paidElements, characters_flatMap]
  | GET_ALL_PLUGINS_RESPONSE =>
    refine (pays_elements pays_plugin).bind fun _ => Pays.pure ?_
    simp [EventSizes.body, Body.strings, Body.event, paidElements, characters_flatMap]
  | ENABLE_PLUGIN_REQUEST => exact pays_ofString fun _ => rfl
  | DISABLE_PLUGIN_REQUEST => exact pays_ofString fun _ => rfl
  | GET_PLUGIN_CONFIGURATION_REQUEST => exact pays_ofString fun _ => rfl
  | GET_PLUGIN_CONFIGURATION_RESPONSE =>
    simp only [Body.extract]
    split
    · refine (pays_many pays_record).bind fun _ => Pays.pure ?_
      simp [EventSizes.body, Body.strings, Body.event, paidElements, characters_flatMap]
    · exact Pays.pure rfl
  | UPDATE_PLUGIN_CONFIGURATION_REQUEST =>
    simp only [Body.extract]
    split
    · refine pays_string.bind fun _ => pays_string.bind fun _ => pays_string.bind fun _ => Pays.pure ?_
      simp [EventSizes.body, Body.strings, Body.event, paidElements]
    · exact Pays.pure rfl
  | _ => exact Pays.pure rfl

/-! ## Lists of strings -/

/-- The lengths of all lists of a message. -/
def elements (body : Body (CloudEvent D V)) : List Nat :=
  body.counts ++ (body.event.map fun cloudEvent => cloudEvent.attributes.length).toList

theorem takes_record : Takes PluginConfigurationRecordResponse.extract := by
  intro buffer rest record read filled
  obtain ⟨name, between, first, tail⟩ := Reader.bind_eq_some.mp read
  have fewer := takes_string first filled
  have others : Pays (do
      let description ← nextString
      let defaultValue ← nextString
      let configuredValue ← nextString
      pure (⟨name, description, defaultValue, configuredValue⟩ : PluginConfigurationRecordResponse)) fun _ => 0 :=
    pays_string.bind fun _ => pays_string.bind fun _ => pays_string.bind fun _ => Pays.pure (by omega)
  have paid := others between rest record tail
  omega

theorem readsStrings_record : ReadsStrings PluginConfigurationRecordResponse.extract :=
  .bind .string fun _ => .bind .string fun _ => .bind .string fun _ => .bind .string fun _ => .pure _

section
variable {α : Type} {r : Reader UInt8 α} {buffer rest : List UInt8}

/-- A list longer than the bytes it is read off was counted so, before whole strings. -/
theorem overcount_of_nextMany (strings : ReadsStrings r) (takes : Takes r) {as : List α} {n : Nat}
    (read : nextMany r buffer = some (as, rest)) (size : buffer.length ≤ n) (long : n < as.length) :
    ∃ count between, nextInt buffer = some (count, between) ∧ (n : Int) < count ∧ WholeStrings between := by
  obtain ⟨count, between, counted, loop⟩ := Reader.bind_eq_some.mp read
  have turns := Reader.length_of_times loop
  have paid := pays_int buffer between count counted
  refine ⟨count, between, counted, by omega, whole_of_times strings takes loop ?_⟩
  simp only at paid
  omega

/-- Off whole strings a list is read as long as it was counted. -/
theorem nextMany_of_overcount (strings : ReadsStrings r) {count : Int} {between : List UInt8}
    (counted : nextInt buffer = some (count, between)) (whole : WholeStrings between) :
    ∃ as rest, nextMany r buffer = some (as, rest) ∧ as.length = count.toNat := by
  obtain ⟨as, rest, loop, -⟩ := (strings.times count.toNat).onward whole
  exact ⟨as, rest, Reader.bind_eq_some.mpr ⟨count, between, counted, loop⟩, Reader.length_of_times loop⟩

end

/-- The count before a list whose elements are nothing but strings. -/
def stringListCount (status : HeaderStatus) : Commands → Reader UInt8 Int
  | .GET_ALL_VPNS_RESPONSE => nextInt
  | .SUBSCRIBE_REQUEST => do
    let _ ← nextString
    let _ ← nextString
    nextInt
  | .GET_PLUGIN_CONFIGURATION_RESPONSE => if status.equals .SUCCESS then nextInt else Reader.require none
  | _ => Reader.require none

/-- Whatever is read is of the class the command stands for. -/
theorem yields_command (status : HeaderStatus) (cmd : Commands) :
    Yields (Body.extract lib status cmd) fun body => body = .package ∨ body.command = some cmd := by
  cases cmd with
  | HELLO_REQUEST => exact .bind fun _ => .pure (.inr rfl)
  | SUBSCRIBE_REQUEST => exact .bind fun _ => .bind fun _ => .bind fun _ => .pure (.inr rfl)
  | ADD_CLIENT_REQUEST => exact .bind fun _ => .bind fun _ => .bind fun _ => .pure (.inr rfl)
  | ADD_CLIENT_RESPONSE => exact .pure (.inr rfl)
  | SUBSCRIBE_RESPONSE => exact .bind fun _ => .pure (.inr rfl)
  | DISCONNECT_REQUEST => exact .bind fun _ => .bind fun _ => .pure (.inr rfl)
  | HELLO_RESPONSE => exact .bind fun _ => .pure (.inr rfl)
  | PUBLISH_MESSAGE_REQUEST => exact .bind fun _ => .bind fun _ => .bind fun _ => .pure (.inr rfl)
  | GET_ALL_VPNS_RESPONSE => exact .bind fun _ => .pure (.inr rfl)
  | ADD_VPN_REQUEST => exact .bind fun _ => .pure (.inr rfl)
  | READ_NEXT_MESSAGE_REQUEST => exact .bind fun _ => .bind fun _ => .pure (.inr rfl)
  | READ_TOPIC_MESSAGE_REQUEST => exact .bind fun _ => .bind fun _ => .pure (.inr rfl)
  | ADD_BRIDGE_REQUEST => exact .bind fun _ => .bind fun _ => .bind fun _ => .bind fun _ => .bind fun _ => .pure (.inr rfl)
  | GET_ALL_BRIDGE_VPN_RESPONSE => exact .bind fun _ => .pure (.inr rfl)
  | GET_ALL_PLUGINS_RESPONSE => exact .bind fun _ => .pure (.inr rfl)
  | ENABLE_PLUGIN_REQUEST => exact .bind fun _ => .pure (.inr rfl)
  | DISABLE_PLUGIN_REQUEST => exact .bind fun _ => .pure (.inr rfl)
  | GET_PLUGIN_CONFIGURATION_REQUEST => exact .bind fun _ => .pure (.inr rfl)
  | READ_NEXT_MESSAGE_RESPONSE =>
    refine .bind fun containsMessage => ?_
    cases containsMessage with
    | false => exact .pure (.inr rfl)
    | true => exact .bind fun _ => .bind fun _ => .pure (.inr rfl)
  | READ_TOPIC_MESSAGE_RESPONSE =>
    refine .bind fun _ => .bind fun _ => .bind fun containsMessage => ?_
    cases containsMessage with
    | false => exact .pure (.inr rfl)
    | true => exact .bind fun _ => .pure (.inr rfl)
  | GET_PLUGIN_CONFIGURATION_RESPONSE =>
    simp only [Body.extract]
    split
    · exact .bind fun _ => .pure (.inr rfl)
    · exact .pure (.inr rfl)
  | UPDATE_PLUGIN_CONFIGURATION_REQUEST =>
    simp only [Body.extract]
    split
    · exact .bind fun _ => .bind fun _ => .bind fun _ => .pure (.inr rfl)
    · exact .pure (.inr rfl)
  | _ => exact .pure (.inl rfl)

/-- The commands of messages with a list of strings. -/
def Commands.ofStringLists : List Commands :=
  [.SUBSCRIBE_REQUEST, .GET_ALL_VPNS_RESPONSE, .GET_PLUGIN_CONFIGURATION_RESPONSE]

theorem le_getD_of_mem {count : Nat} {length : Option Nat} (inside : count ∈ length.toList) : count ≤ length.getD 0 := by
  cases length with
  | none => exact absurd inside List.not_mem_nil
  | some length => exact (List.mem_singleton.mp inside).le

/-- The elements of any other list are paid for. -/
theorem elements_le_paid {body : Body (CloudEvent D V)} (others : ∀ cmd ∈ body.command, cmd ∉ Commands.ofStringLists)
    {count : Nat} (inside : count ∈ elements body) : count ≤ paidElements body := by
  have attributes : count ∈ (body.event.map fun cloudEvent => cloudEvent.attributes.length).toList →
      count ≤ (body.event.map fun cloudEvent => cloudEvent.attributes.length).getD 0 := le_getD_of_mem
  cases body with
  | subscriptionRequest sessionId groupId topicFilters => exact absurd (by decide) (others .SUBSCRIBE_REQUEST rfl)
  | getAllVpnResponse vpns => exact absurd (by decide) (others .GET_ALL_VPNS_RESPONSE rfl)
  | getPluginConfigurationResponse records =>
    exact absurd (by decide) (others .GET_PLUGIN_CONFIGURATION_RESPONSE rfl)
  | addClientRequest vpn clientId purposes => exact (List.mem_singleton.mp inside).le
  | getAllBridgeResponse servers => exact (List.mem_singleton.mp inside).le
  | getAllPluginsResponse plugins => exact (List.mem_singleton.mp inside).le
  | _ => exact attributes inside

/-- A list longer than the datagram is a list of strings. -/
theorem overcount_of_extract (bounds : sizes.Bounds lib) {status : HeaderStatus} {cmd : Commands}
    {buffer rest : List UInt8} {body : Body (CloudEvent D V)} {n count : Nat}
    (read : Body.extract lib status cmd buffer = some (body, rest)) (size : buffer.length ≤ n)
    (inside : count ∈ elements body) (long : n < count) :
    ∃ counted between, stringListCount status cmd buffer = some (counted, between) ∧ (n : Int) < counted ∧
      WholeStrings between := by
  have paid : sizes.body body + paidElements body + rest.length ≤ buffer.length :=
    pays_extract bounds status cmd buffer rest body read
  have own := yields_command status cmd buffer rest body read
  have listed : cmd ∈ Commands.ofStringLists := by
    by_contra other
    have others : ∀ c ∈ body.command, c ∉ Commands.ofStringLists := by
      rintro c isCommand
      rcases own with rfl | own
      · exact absurd isCommand (by simp [Body.command])
      · rw [own, Option.mem_some_iff] at isCommand
        rwa [← isCommand]
    have := elements_le_paid others inside
    omega
  simp only [Commands.ofStringLists, List.mem_cons, List.not_mem_nil, or_false] at listed
  rcases listed with rfl | rfl | rfl
  · obtain ⟨sessionId, afterSession, first, tail⟩ := Reader.bind_eq_some.mp read
    obtain ⟨groupId, afterGroup, second, tail⟩ := Reader.bind_eq_some.mp tail
    obtain ⟨topicFilters, _, many, made⟩ := Reader.bind_eq_some.mp tail
    obtain ⟨rfl, rfl⟩ := Reader.pure_eq_some.mp made
    obtain rfl : count = topicFilters.length := by simpa [elements, Body.counts, Body.event] using inside
    have sessionPaid := pays_string buffer afterSession sessionId first
    have groupPaid := pays_string afterSession afterGroup groupId second
    obtain ⟨counted, between, readCount, more, whole⟩ :=
      overcount_of_nextMany .string takes_string many (by omega) long
    refine ⟨counted, between, Reader.bind_eq_some.mpr ⟨sessionId, afterSession, first, ?_⟩, more, whole⟩
    exact Reader.bind_eq_some.mpr ⟨groupId, afterGroup, second, readCount⟩
  · obtain ⟨vpns, _, many, made⟩ := Reader.bind_eq_some.mp read
    obtain ⟨rfl, rfl⟩ := Reader.pure_eq_some.mp made
    obtain rfl : count = vpns.length := by simpa [elements, Body.counts, Body.event] using inside
    exact overcount_of_nextMany .string takes_string many size long
  · simp only [Body.extract] at read
    split at read
    next success =>
      obtain ⟨records, _, many, made⟩ := Reader.bind_eq_some.mp read
      obtain ⟨rfl, rfl⟩ := Reader.pure_eq_some.mp made
      obtain rfl : count = records.length := by simpa [elements, Body.counts, Body.event] using inside
      simp only [stringListCount, success, if_true]
      exact overcount_of_nextMany readsStrings_record takes_record many size long
    next =>
      obtain ⟨rfl, rfl⟩ := Reader.pure_eq_some.mp read
      obtain rfl : count = 0 := by simpa [elements, Body.counts, Body.event] using inside
      omega

/-- A list of strings is read as long as it was counted. -/
theorem extract_of_overcount {status : HeaderStatus} {cmd : Commands} {buffer between : List UInt8} {counted : Int}
    (readCount : stringListCount status cmd buffer = some (counted, between)) (whole : WholeStrings between) :
    ∃ body rest, Body.extract lib status cmd buffer = some (body, rest) ∧ counted.toNat ∈ elements body := by
  unfold stringListCount at readCount
  split at readCount
  · obtain ⟨vpns, rest, many, length⟩ := nextMany_of_overcount .string readCount whole
    refine ⟨.getAllVpnResponse vpns, rest, Reader.bind_eq_some.mpr ⟨vpns, rest, many, rfl⟩, ?_⟩
    simp [elements, Body.counts, length]
  · obtain ⟨sessionId, afterSession, first, tail⟩ := Reader.bind_eq_some.mp readCount
    obtain ⟨groupId, afterGroup, second, tail⟩ := Reader.bind_eq_some.mp tail
    obtain ⟨topicFilters, rest, many, length⟩ := nextMany_of_overcount .string tail whole
    refine ⟨.subscriptionRequest sessionId groupId topicFilters, rest, ?_, ?_⟩
    · refine Reader.bind_eq_some.mpr ⟨sessionId, afterSession, first, ?_⟩
      refine Reader.bind_eq_some.mpr ⟨groupId, afterGroup, second, ?_⟩
      exact Reader.bind_eq_some.mpr ⟨topicFilters, rest, many, rfl⟩
    · simp [elements, Body.counts, length]
  · split at readCount
    next success =>
      obtain ⟨records, rest, many, length⟩ := nextMany_of_overcount readsStrings_record readCount whole
      refine ⟨.getPluginConfigurationResponse records, rest, ?_, by simp [elements, Body.counts, length]⟩
      simp only [Body.extract, success, if_true]
      exact Reader.bind_eq_some.mpr ⟨records, rest, many, rfl⟩
    next => cases readCount
  · cases readCount

/-! ## Datagrams -/

/-- The lists and the strings of a package, within a bound. -/
structure IsWithin (sizes : EventSizes D V) (p : Package (CloudEvent D V)) (bound : Nat) : Prop where
  lists : ∀ count ∈ elements p.body, count ≤ bound
  strings : characters p.header.strings + sizes.body p.body ≤ bound

/-- The count before the list of strings of a datagram, if it has one. -/
def countOfStrings : Reader UInt8 Int := do
  let _ ← nextString
  let _ ← nextString
  let header ← Header.deserialize
  stringListCount header.status header.command

/-- The count before a list of strings is greater than the datagram is long, and whole strings follow it. -/
def Overcounts (b : List UInt8) : Prop :=
  ∃ count rest, countOfStrings b = some (count, rest) ∧ (b.length : Int) < count ∧ WholeStrings rest

/-- A package is read part by part. -/
theorem deserialize_eq_some {b rest : List UInt8} {p : Package (CloudEvent D V)} :
    Package.deserialize lib b = some (p, rest) ↔
      ∃ magic afterMagic version afterVersion afterHeader, nextString b = some (magic, afterMagic) ∧
        nextString afterMagic = some (version, afterVersion) ∧
        Header.deserialize afterVersion = some (p.header, afterHeader) ∧
        Body.extract lib p.header.status p.header.command afterHeader = some (p.body, rest) := by
  constructor
  · intro read
    obtain ⟨magic, afterMagic, first, tail⟩ := Reader.bind_eq_some.mp read
    obtain ⟨version, afterVersion, second, tail⟩ := Reader.bind_eq_some.mp tail
    obtain ⟨header, afterHeader, third, tail⟩ := Reader.bind_eq_some.mp tail
    obtain ⟨body, _, extracted, made⟩ := Reader.bind_eq_some.mp tail
    obtain ⟨rfl, rfl⟩ := Reader.pure_eq_some.mp made
    exact ⟨magic, afterMagic, version, afterVersion, afterHeader, first, second, third, extracted⟩
  · rintro ⟨magic, afterMagic, version, afterVersion, afterHeader, first, second, third, extracted⟩
    refine Reader.bind_eq_some.mpr ⟨magic, afterMagic, first, ?_⟩
    refine Reader.bind_eq_some.mpr ⟨version, afterVersion, second, ?_⟩
    refine Reader.bind_eq_some.mpr ⟨p.header, afterHeader, third, ?_⟩
    exact Reader.bind_eq_some.mpr ⟨p.body, rest, extracted, rfl⟩

/-- Where a list is counted too high, it is longer than the datagram. -/
theorem exists_not_isWithin (sizes : EventSizes D V) {b : List UInt8} (overcounts : Overcounts b) :
    ∃ p rest, Package.deserialize lib b = some (p, rest) ∧ ¬ IsWithin sizes p b.length := by
  obtain ⟨count, between, read, more, whole⟩ := overcounts
  obtain ⟨magic, afterMagic, first, tail⟩ := Reader.bind_eq_some.mp read
  obtain ⟨version, afterVersion, second, tail⟩ := Reader.bind_eq_some.mp tail
  obtain ⟨header, afterHeader, third, readCount⟩ := Reader.bind_eq_some.mp tail
  obtain ⟨body, rest, extracted, inside⟩ := extract_of_overcount readCount whole
  refine ⟨⟨header, body⟩, rest, deserialize_eq_some.mpr ⟨_, _, _, _, _, first, second, third, extracted⟩, ?_⟩
  intro within
  have := within.lists _ inside
  omega

/-- Where no list is counted too high, everything is within the datagram. -/
theorem isWithin_of_not_overcounts (bounds : sizes.Bounds lib) {b rest : List UInt8} (fits : ¬ Overcounts b)
    {p : Package (CloudEvent D V)} (read : Package.deserialize lib b = some (p, rest)) :
    IsWithin sizes p b.length := by
  obtain ⟨magic, afterMagic, version, afterVersion, afterHeader, first, second, third, extracted⟩ :=
    deserialize_eq_some.mp read
  have magicPaid := pays_string b afterMagic magic first
  have versionPaid := pays_string afterMagic afterVersion version second
  have headerPaid : characters p.header.strings + afterHeader.length ≤ afterVersion.length :=
    Header.pays afterVersion afterHeader p.header third
  have bodyPaid : sizes.body p.body + paidElements p.body + rest.length ≤ afterHeader.length :=
    pays_extract bounds _ _ afterHeader rest p.body extracted
  refine ⟨fun count inside => ?_, by omega⟩
  by_contra long
  obtain ⟨counted, between, readCount, more, whole⟩ :=
    overcount_of_extract bounds extracted (n := b.length) (by omega) inside (by omega)
  refine fits ⟨counted, between, ?_, more, whole⟩
  refine Reader.bind_eq_some.mpr ⟨magic, afterMagic, first, ?_⟩
  refine Reader.bind_eq_some.mpr ⟨version, afterVersion, second, ?_⟩
  exact Reader.bind_eq_some.mpr ⟨p.header, afterHeader, third, readCount⟩

/-- **Decoding is bounded by the datagram**, for every datagram where it is a consensus or gossip package,
and exactly where it does not overcount strings where it is a package of the event mesh. -/
theorem decoding_bounded_iff (lib : CloudEventLibrary D V) (sizes : EventSizes D V) (bounds : sizes.Bounds lib)
    (b : List UInt8) :
    (∀ p rest, ConsensusPackage.deserialize b = some (some p, rest) → p.characters ≤ b.length) ∧
    (∀ p rest, GossipPackage.deserialize b = some (some p, rest) →
      p.elements ≤ b.length ∧ p.characters ≤ b.length) ∧
    ((∀ p rest, Package.deserialize lib b = some (p, rest) → IsWithin sizes p b.length) ↔ ¬ Overcounts b) := by
  refine ⟨fun p rest read => ?_, fun p rest read => ?_, fun within overcounts => ?_, fun fits p rest read => ?_⟩
  · have paid : p.characters + rest.length ≤ b.length := ConsensusPackage.pays b rest (some p) read
    omega
  · have paid : p.characters + p.elements + rest.length ≤ b.length := GossipPackage.pays b rest (some p) read
    exact ⟨by omega, by omega⟩
  · obtain ⟨p, rest, read, outside⟩ := exists_not_isWithin sizes overcounts
    exact outside (within p rest read)
  · exact isWithin_of_not_overcounts bounds fits read

end

/-- The characters of texts. -/
def EventSizes.ofTexts : EventSizes (List UInt8) String := ⟨List.length, String.length⟩

/-- The sizes of texts are bounded by their bytes. -/
theorem EventSizes.ofTexts_bounds : EventSizes.ofTexts.Bounds CloudEventLibrary.onTexts where
  data := by
    rintro payload _ _ ⟨⟩
    exact Nat.le_refl _
  time := by
    rintro text _ ⟨⟩
    exact Nat.le_refl _
  value := by
    intro name text typed set
    obtain ⟨-, ⟨⟩⟩ := Option.ite_none_left_eq_some.mp set
    exact Nat.le_refl _
  name := fun _ => rfl

/-- An answer that counts VPNs, and what follows the count. -/
def vpnsDatagram (count : Int) (rest : List UInt8) : List UInt8 :=
  WriteBufferContext.writeString Package.magicCode ++ (WriteBufferContext.writeString Package.protocolVersion
    ++ ((Header.success .GET_ALL_VPNS_RESPONSE "0123456789").serialize ++ (WriteBufferContext.writeInteger count ++ rest)))

/-- The count of a list of VPNs is read from its datagram. -/
theorem countOfStrings_vpnsDatagram {count : Int} (isInt : IsInt count) (rest : List UInt8) :
    countOfStrings (vpnsDatagram count rest) = some (count, rest) := by
  have magic : Reads nextString (WriteBufferContext.writeString Package.magicCode) Package.magicCode :=
    reads_string (by decide)
  have version : Reads nextString (WriteBufferContext.writeString Package.protocolVersion) Package.protocolVersion :=
    reads_string (by decide)
  have header : Reads Header.deserialize (Header.success .GET_ALL_VPNS_RESPONSE "0123456789").serialize
      (Header.success .GET_ALL_VPNS_RESPONSE "0123456789") := Header.reads (by decide) (by decide)
  rw [vpnsDatagram, countOfStrings, magic.bind_apply, version.bind_apply, header.bind_apply]
  exact reads_integer isInt rest

/-- An answer with two VPNs is within its datagram. -/
theorem two_vpns_are_within :
    let p : Package (CloudEvent (List UInt8) String) := PackageResponseBuilder.getAllVpns "0123456789" ["shop", "bank"]
    Package.deserialize .onTexts (p.serialize .onTexts) = some (p, []) ∧
      IsWithin EventSizes.ofTexts p (p.serialize .onTexts).length := by
  intro p
  have representable : p.IsRepresentable := ⟨by decide, by decide, by decide, by decide, by decide, nofun⟩
  have read : Package.deserialize .onTexts (p.serialize .onTexts) = some (p, []) :=
    (Package.deserialize_serialize_iff .onTexts representable).mpr rfl
  have written : p.serialize .onTexts = vpnsDatagram 2 (WriteBufferContext.writeString "shop" ++
      WriteBufferContext.writeString "bank") := by decide
  refine ⟨read, (decoding_bounded_iff .onTexts .ofTexts EventSizes.ofTexts_bounds _).2.2.mpr ?_ p [] read⟩
  rintro ⟨count, rest, counted, more, -⟩
  rw [written, countOfStrings_vpnsDatagram (by decide)] at counted
  obtain ⟨rfl, -⟩ := Prod.mk.inj (Option.some.inj counted)
  have long : 2 ≤ (p.serialize .onTexts).length := by decide
  omega

/-- A datagram of some fifty bytes is read as a list of a million VPNs. -/
theorem short_datagram_makes_long_list :
    ¬ ∀ (lib : CloudEventLibrary (List UInt8) String) (sizes : EventSizes (List UInt8) String), sizes.Bounds lib →
      ∀ b p rest, Package.deserialize lib b = some (p, rest) → IsWithin sizes p b.length := by
  intro bounded
  have overcounts : Overcounts (vpnsDatagram 1000000 []) :=
    ⟨_, _, countOfStrings_vpnsDatagram (by decide) [], by decide, .nil⟩
  obtain ⟨p, rest, read, outside⟩ := exists_not_isWithin EventSizes.ofTexts overcounts
  exact outside (bounded .onTexts _ EventSizes.ofTexts_bounds _ p rest read)

end FaasNet.EventMesh.Client
