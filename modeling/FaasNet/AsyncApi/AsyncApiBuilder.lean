import Mathlib.Data.List.Induction

/-!
# The AsyncAPI document of an application

`AsyncApiBuilder.build` writes a channel for each link with a message, and the message under its name. A channel is
replaced by the next link on its topic, whatever the direction of both, a name belongs to the first linked message that
has it, and a link to a message that is not known throws. So the document says what it should exactly if the last link on
a topic speaks for the others, and the first message of a name for those with the same one.
-/

namespace FaasNet.AsyncApi

/-! ## Objects -/

/-- A JavaScript object, as the list of its own keys with their values. -/
abbrev JsObject (V : Type) := List (String × V)

namespace JsObject
variable {V : Type}

/-- `object[key] = value`. The key `__proto__` sets the prototype, which is no key of the object. -/
def assign (object : JsObject V) (key : String) (value : V) : JsObject V :=
  if key = "__proto__" then object
  else if object.any (·.1 = key) then object.map fun e => if e.1 = key then (key, value) else e
  else object ++ [(key, value)]

theorem lookup_of_ne {object : JsObject V} {k key : String} {value : V} (apart : k ≠ key) :
    List.lookup k ((key, value) :: object) = object.lookup k := by
  rw [List.lookup_cons, beq_false_of_ne apart]

theorem any_iff_lookup {object : JsObject V} {key : String} : object.any (·.1 = key) = (object.lookup key).isSome := by
  induction object with
  | nil => rfl
  | cons e object ih =>
    obtain ⟨k, v⟩ := e
    by_cases here : key = k
    · subst here
      simp
    · rw [lookup_of_ne here, List.any_cons, ih]
      simp [Ne.symm here]

theorem lookup_replace (object : JsObject V) (key : String) (value : V) (k : String) :
    (object.map fun e => if e.1 = key then (key, value) else e).lookup k =
      if k = key then (object.lookup key).map fun _ => value else object.lookup k := by
  induction object with
  | nil => simp
  | cons e object ih =>
    obtain ⟨key', old⟩ := e
    by_cases here : key' = key
    · subst here
      by_cases same : k = key'
      · subst same
        simp
      · simpa [lookup_of_ne same, same] using ih
    · by_cases same : k = key
      · subst same
        simpa [lookup_of_ne (Ne.symm here), here] using ih
      · by_cases found : k = key'
        · subst found
          simp [here]
        · simpa [lookup_of_ne found, here, same] using ih

theorem lookup_append (object other : JsObject V) (k : String) :
    (object ++ other).lookup k = (object.lookup k).or (other.lookup k) := by
  induction object with
  | nil => rfl
  | cons e object ih =>
    obtain ⟨key, value⟩ := e
    by_cases here : k = key
    · subst here
      simp
    · rw [List.cons_append, lookup_of_ne here, lookup_of_ne here, ih]

/-- A key that is assigned has the value, the others have what they had. -/
theorem lookup_assign {object : JsObject V} {key : String} (own : key ≠ "__proto__") (value : V) (k : String) :
    (object.assign key value).lookup k = if k = key then some value else object.lookup k := by
  rw [assign, if_neg own, any_iff_lookup]
  by_cases present : (object.lookup key).isSome
  · rw [if_pos present, lookup_replace]
    obtain ⟨old, found⟩ := Option.isSome_iff_exists.mp present
    rw [found]
    rfl
  · rw [if_neg present, lookup_append]
    by_cases same : k = key
    · subst same
      rw [Option.not_isSome_iff_eq_none.mp present, List.lookup_cons_self, if_pos rfl]
      rfl
    · rw [lookup_of_ne same, List.lookup_nil, Option.or_none, if_neg same]

end JsObject

/-! ## The model -/

/-- What is read of an application link. -/
structure ApplicationLinkResult where
  topicName : String
  messageId : Option String := none
  deriving DecidableEq, Repr

/-- `messageId` is a condition. -/
def ApplicationLinkResult.hasMessage (l : ApplicationLinkResult) : Bool := l.messageId.any (· ≠ "")

structure ApplicationResult where
  title : String := ""
  description : String := ""
  version : Int := 0
  links : List ApplicationLinkResult := []
  deriving DecidableEq, Repr

structure MessageDefinitionResult where
  id : String
  name : String
  jsonSchema : String
  deriving DecidableEq, Repr

/-- `info`, whose version is a text unless it is that of the application. -/
structure Info where
  version : String ⊕ Int := .inl "0.0.1"
  title : Option String := none
  description : Option String := none
  deriving DecidableEq, Repr

/-- A channel, with the `$ref` of the message of either operation. -/
structure Channel where
  publish : Option String := none
  subscribe : Option String := none
  deriving DecidableEq, Repr

/-- A message of the components. -/
structure MessageObject (J : Type) where
  payload : J
  deriving DecidableEq, Repr

structure AsyncApiDocument (J : Type) where
  asyncapi : String := "2.2.0"
  info : Info
  channels : Option (JsObject Channel) := none
  messages : Option (JsObject (MessageObject J)) := none

/-- `messages.filter((m) => m.id === l.messageId)[0]`. -/
def messageOf (messages : List MessageDefinitionResult) (l : ApplicationLinkResult) : Option MessageDefinitionResult :=
  messages.find? fun m => some m.id = l.messageId

def referenceTo (name : String) : String := "#/components/messages/" ++ name

namespace AsyncApiBuilder
variable {J : Type}

def buildInfo (app : ApplicationResult) : Info where
  title := if app.title ≠ "" then some app.title else none
  version := if app.version ≠ 0 then .inr app.version else .inl "0.0.1"
  description := if app.description ≠ "" then some app.description else none

/-- The schema is parsed where the name is new; `parse` is `JSON.parse`, which can throw. -/
def buildMessages (parse : String → Option J) (result : JsObject (MessageObject J)) (links : List ApplicationLinkResult)
    (messages : List MessageDefinitionResult) : Option (JsObject (MessageObject J)) :=
  links.foldlM (fun result l =>
    if l.hasMessage then
      match messageOf messages l with
      | none => some result
      | some message =>
        if result.any (·.1 = message.name) then some result
        else (parse message.jsonSchema).map fun payload => result.assign message.name ⟨payload⟩
    else some result) result

/-- Without a message there is no name to read. -/
def buildChannels (result : JsObject Channel) (rootTopic : String) (links : List ApplicationLinkResult) (isSubscribe : Bool)
    (messages : List MessageDefinitionResult) : Option (JsObject Channel) :=
  links.foldlM (fun result l =>
    if l.hasMessage then
      (messageOf messages l).map fun message =>
        let ref := some (referenceTo message.name)
        result.assign (rootTopic ++ "/" ++ l.topicName) (if isSubscribe then { subscribe := ref } else { publish := ref })
    else some result) result

def build (parse : String → Option J) (rootTopic : String) (app : ApplicationResult)
    (consumedLinks : List ApplicationLinkResult) (msgs : List MessageDefinitionResult) : Option (AsyncApiDocument J) := do
  let channels ← buildChannels [] rootTopic app.links false msgs
  let channels ← buildChannels channels rootTopic consumedLinks true msgs
  let messages ← buildMessages parse [] app.links msgs
  let messages ← buildMessages parse messages consumedLinks msgs
  return {
    info := buildInfo app
    channels := if channels.isEmpty then none else some channels
    messages := if messages.isEmpty then none else some messages }

end AsyncApiBuilder

/-! ## What the document should say -/

/-- The operations of a channel. -/
inductive Direction where
  | publish
  | subscribe
  deriving DecidableEq, Repr

/-- Consumed links are subscribed to. -/
def Direction.isSubscribe : Direction → Bool
  | publish => false
  | subscribe => true

def Channel.ref (channel : Channel) : Direction → Option String
  | .publish => channel.publish
  | .subscribe => channel.subscribe

/-- The links of both directions. -/
def directed (app : ApplicationResult) (consumedLinks : List ApplicationLinkResult) : List (ApplicationLinkResult × Direction) :=
  app.links.map (·, .publish) ++ consumedLinks.map (·, .subscribe)

section
variable {J : Type} (parse : String → Option J) (decode : String → Option String) (rootTopic : String)

/-- A reference is one to a message of the components; `decode` is how its end is read as a name. -/
def Resolves (document : AsyncApiDocument J) (ref : String) (schema : J) : Prop :=
  ∃ text name, ref = referenceTo text ∧ decode text = some name ∧ document.messages.bind (·.lookup name) = some ⟨schema⟩

/-- The channel of a link has an operation whose reference resolves to the schema of the message. -/
def Documents (document : AsyncApiDocument J) (l : ApplicationLinkResult × Direction) (message : MessageDefinitionResult) :
    Prop :=
  ∃ channel ref schema, document.channels.bind (·.lookup (rootTopic ++ "/" ++ l.1.topicName)) = some channel ∧
    channel.ref l.2 = some ref ∧ parse message.jsonSchema = some schema ∧ Resolves decode document ref schema

variable (app : ApplicationResult) (consumedLinks : List ApplicationLinkResult) (msgs : List MessageDefinitionResult)

/-- `build` gives a document with all links whose message is known. -/
def BuildsComplete : Prop :=
  ∃ document, AsyncApiBuilder.build parse rootTopic app consumedLinks msgs = some document ∧
    ∀ l ∈ directed app consumedLinks, ∀ message, messageOf msgs l.1 = some message →
      Documents parse decode rootTopic document l message

/-! ## The condition -/

variable (ls : List (ApplicationLinkResult × Direction))

/-- The messages of the links, in their order. -/
def linkedMessages : List MessageDefinitionResult :=
  (ls.filter (·.1.hasMessage)).filterMap fun l => messageOf msgs l.1

/-- The message that a name is given to. -/
def firstNamed (ms : List MessageDefinitionResult) (name : String) : Option MessageDefinitionResult :=
  ms.find? fun m => m.name = name

/-- The link that a topic is left to. -/
def lastOn (topicName : String) : Option (ApplicationLinkResult × Direction) :=
  (ls.filter (·.1.hasMessage)).reverse.find? fun l => l.1.topicName = topicName

/-- The messages whose schema is read can be parsed: the first of each name. -/
def Parsed (ms : List MessageDefinitionResult) : Prop :=
  ∀ m ∈ ms, m.name = "__proto__" ∨ firstNamed ms m.name = some m → (parse m.jsonSchema).isSome

/-- The last link on the topic has the direction of this one, and the first message with its name has the schema of this
one's message. -/
def SpokenFor (l : ApplicationLinkResult × Direction) (message : MessageDefinitionResult) : Prop :=
  ∃ last sent name first schema, lastOn ls l.1.topicName = some (last, l.2) ∧ messageOf msgs last = some sent ∧
    decode sent.name = some name ∧ name ≠ "__proto__" ∧ firstNamed (linkedMessages msgs ls) name = some first ∧
    parse first.jsonSchema = some schema ∧ parse message.jsonSchema = some schema

structure CanDocument : Prop where
  known : ∀ l ∈ ls, l.1.hasMessage → (messageOf msgs l.1).isSome
  parsed : Parsed parse (linkedMessages msgs ls)
  spokenFor : ∀ l ∈ ls, ∀ message, messageOf msgs l.1 = some message → SpokenFor parse decode msgs ls l message

end

/-! ## Channels -/

section
variable {rootTopic : String} {msgs : List MessageDefinitionResult} {ls : List (ApplicationLinkResult × Direction)}

def channelTo (direction : Direction) (name : String) : Channel :=
  let ref := some (referenceTo name)
  if direction.isSubscribe then { subscribe := ref } else { publish := ref }

/-- What a link of either direction adds. -/
def addChannel (rootTopic : String) (msgs : List MessageDefinitionResult) (result : JsObject Channel)
    (l : ApplicationLinkResult × Direction) : Option (JsObject Channel) :=
  if l.1.hasMessage then
    (messageOf msgs l.1).map fun message => result.assign (rootTopic ++ "/" ++ l.1.topicName) (channelTo l.2 message.name)
  else some result

/-- The channels of a direction are added link by link. -/
theorem buildChannels_eq (result : JsObject Channel) (links : List ApplicationLinkResult) (direction : Direction) :
    AsyncApiBuilder.buildChannels result rootTopic links direction.isSubscribe msgs =
      (links.map (·, direction)).foldlM (addChannel rootTopic msgs) result := by
  rw [List.foldlM_map]
  rfl

/-- A new channel refers to its message in its direction. -/
theorem ref_channelTo {direction other : Direction} {name ref : String} :
    (channelTo direction name).ref other = some ref ↔ direction = other ∧ ref = referenceTo name := by
  cases direction <;> cases other <;> simp [channelTo, Channel.ref, Direction.isSubscribe, eq_comm]

/-- No topic has the name of a prototype. -/
theorem topic_ne_proto (topicName : String) : rootTopic ++ "/" ++ topicName ≠ "__proto__" := by
  intro same
  have slash : '/' ∈ (rootTopic ++ "/" ++ topicName).toList := by simp
  rw [same] at slash
  revert slash
  decide

theorem topic_inj {a b : String} : rootTopic ++ "/" ++ a = rootTopic ++ "/" ++ b ↔ a = b := by
  exact String.append_right_inj _

theorem referenceTo_inj {a b : String} : referenceTo a = referenceTo b ↔ a = b := by
  exact String.append_right_inj _

/-- The last link of a topic is the one at the end, if it has a message there. -/
theorem lastOn_concat (ls : List (ApplicationLinkResult × Direction)) (l : ApplicationLinkResult × Direction) (topicName : String) :
    lastOn (ls ++ [l]) topicName = if l.1.hasMessage ∧ l.1.topicName = topicName then some l else lastOn ls topicName := by
  rw [lastOn, lastOn, List.filter_append]
  by_cases sends : l.1.hasMessage
  · by_cases same : l.1.topicName = topicName <;> simp [sends, same]
  · simp [sends]

/-- What the channels are: each has the operation of the last link on its topic. -/
theorem lookup_channels {channels : JsObject Channel} (built : ls.foldlM (addChannel rootTopic msgs) [] = some channels) :
    (∀ l ∈ ls, l.1.hasMessage → (messageOf msgs l.1).isSome) ∧ ∀ topicName,
      channels.lookup (rootTopic ++ "/" ++ topicName) =
        (lastOn ls topicName).bind fun l => (messageOf msgs l.1).map fun message => channelTo l.2 message.name := by
  induction ls using List.reverseRecOn generalizing channels with
  | nil =>
    obtain rfl := Option.some.inj built
    exact ⟨fun _ mem => (by cases mem), fun _ => rfl⟩
  | append_singleton ls l ih =>
    rw [List.foldlM_append] at built
    obtain ⟨before, first, last⟩ := Option.bind_eq_some_iff.mp built
    obtain ⟨known, lookups⟩ := ih first
    have last : addChannel rootTopic msgs before l = some channels := by simpa using last
    rw [addChannel] at last
    split_ifs at last with sends
    · obtain ⟨message, found, rfl⟩ := Option.map_eq_some_iff.mp last
      refine ⟨fun l' mem => ?_, fun topicName => ?_⟩
      · rcases List.mem_append.mp mem with earlier | here
        · exact known l' earlier
        · obtain rfl := List.mem_singleton.mp here
          exact fun _ => Option.isSome_of_eq_some found
      · rw [JsObject.lookup_assign (topic_ne_proto _), lastOn_concat, lookups]
        by_cases same : topicName = l.1.topicName
        · simp [same, sends, found]
        · simp only [topic_inj, same, Ne.symm same, and_false, if_false]
    · obtain rfl := Option.some.inj last
      refine ⟨fun l' mem => ?_, fun topicName => ?_⟩
      · rcases List.mem_append.mp mem with earlier | here
        · exact known l' earlier
        · obtain rfl := List.mem_singleton.mp here
          exact fun here => absurd here sends
      · rw [lastOn_concat, lookups]
        simp only [sends, false_and, if_false, Bool.false_eq_true]

/-- The channels can be built if every message is known. -/
theorem channels_isSome (rootTopic : String) (known : ∀ l ∈ ls, l.1.hasMessage → (messageOf msgs l.1).isSome) (result : JsObject Channel) :
    (ls.foldlM (addChannel rootTopic msgs) result).isSome := by
  induction ls generalizing result with
  | nil => rfl
  | cons l ls ih =>
    have rest := ih fun l' mem => known l' (List.mem_cons_of_mem _ mem)
    rw [List.foldlM_cons, addChannel]
    split_ifs with sends
    · obtain ⟨message, found⟩ := Option.isSome_iff_exists.mp (known l List.mem_cons_self sends)
      rw [found]
      exact rest _
    · exact rest _

end

/-! ## Messages -/

section
variable {J : Type} {parse : String → Option J} {msgs : List MessageDefinitionResult}
  {ms : List MessageDefinitionResult} {m : MessageDefinitionResult}

/-- What a linked message adds. -/
def addMessage (parse : String → Option J) (result : JsObject (MessageObject J)) (message : MessageDefinitionResult) :
    Option (JsObject (MessageObject J)) :=
  if result.any (·.1 = message.name) then some result
  else (parse message.jsonSchema).map fun payload => result.assign message.name ⟨payload⟩

/-- The messages are those that the links refer to. -/
theorem buildMessages_eq (result : JsObject (MessageObject J)) (links : List ApplicationLinkResult) (direction : Direction) :
    AsyncApiBuilder.buildMessages parse result links msgs =
      (linkedMessages msgs (links.map (·, direction))).foldlM (addMessage parse) result := by
  rw [AsyncApiBuilder.buildMessages]
  induction links generalizing result with
  | nil => rfl
  | cons l links ih =>
    rw [List.foldlM_cons, List.map_cons, linkedMessages]
    by_cases sends : l.hasMessage
    · cases found : messageOf msgs l with
      | none =>
        simp only [sends, if_true, List.filter_cons_of_pos, List.filterMap_cons, found]
        exact ih result
      | some message =>
        simp only [sends, if_true, List.filter_cons_of_pos, List.filterMap_cons, found, List.foldlM_cons]
        exact Option.bind_congr fun next _ => ih next
    · simp only [sends, if_false, Bool.false_eq_true, not_false_eq_true, List.filter_cons_of_neg]
      exact ih result

theorem linkedMessages_append (ls ls' : List (ApplicationLinkResult × Direction)) :
    linkedMessages msgs (ls ++ ls') = linkedMessages msgs ls ++ linkedMessages msgs ls' := by
  rw [linkedMessages, List.filter_append, List.filterMap_append]
  rfl

/-- A message at the end is the first of its name if there was none. -/
theorem firstNamed_concat (ms : List MessageDefinitionResult) (m : MessageDefinitionResult) (name : String) :
    firstNamed (ms ++ [m]) name = (firstNamed ms name).or (if m.name = name then some m else none) := by
  rw [firstNamed, List.find?_append]
  by_cases same : m.name = name <;> simp [same, firstNamed]

/-- A message that is there has a first of its name. -/
theorem firstNamed_isSome (mem : m ∈ ms) : (firstNamed ms m.name).isSome :=
  List.find?_isSome.mpr ⟨m, mem, by simp⟩

/-- The first of a name is a message of this name. -/
theorem mem_of_firstNamed {name : String} (first : firstNamed ms name = some m) : m ∈ ms ∧ m.name = name :=
  ⟨List.mem_of_find?_eq_some first, by simpa using List.find?_some first⟩

/-- A message that is not the first of its name changes nothing for the others. -/
theorem parsed_concat_iff : Parsed parse (ms ++ [m]) ↔
    Parsed parse ms ∧ (m.name = "__proto__" ∨ firstNamed ms m.name = none → (parse m.jsonSchema).isSome) := by
  constructor
  · intro parsed
    refine ⟨fun x mem reads => parsed x (List.mem_append_left _ mem) (reads.imp_right fun first => ?_), fun reads => ?_⟩
    · rw [firstNamed_concat, first]
      rfl
    · refine parsed m (List.mem_append_right _ List.mem_cons_self) (reads.imp_right fun new => ?_)
      rw [firstNamed_concat, new]
      simp
  · rintro ⟨parsed, last⟩ x mem reads
    rcases List.mem_append.mp mem with earlier | here
    · refine parsed x earlier (reads.imp_right fun first => ?_)
      obtain ⟨y, found⟩ := Option.isSome_iff_exists.mp (firstNamed_isSome earlier)
      rw [firstNamed_concat, found] at first
      exact found.trans first
    · obtain rfl := List.mem_singleton.mp here
      cases found : firstNamed ms x.name with
      | none => exact last (.inr found)
      | some y =>
        refine reads.elim (fun proto => last (.inl proto)) fun first => ?_
        rw [firstNamed_concat, found] at first
        obtain rfl := Option.some.inj first
        exact parsed y (mem_of_firstNamed found).1 (.inr found)

/-- Each name has the first message with it; `__proto__` is none. -/
def Named (parse : String → Option J) (ms : List MessageDefinitionResult) (messages : JsObject (MessageObject J)) : Prop :=
  ∀ name, messages.lookup name = if name = "__proto__" then none else
    (firstNamed ms name).bind fun m => (parse m.jsonSchema).map MessageObject.mk

/-- A name is there exactly if a message had it. -/
theorem Named.any_eq {messages : JsObject (MessageObject J)} (named : Named parse ms messages) (parsed : Parsed parse ms) (name : String) :
    messages.any (·.1 = name) = (decide (name ≠ "__proto__") && (firstNamed ms name).isSome) := by
  rw [JsObject.any_iff_lookup, named]
  by_cases proto : name = "__proto__"
  · simp [proto]
  · cases first : firstNamed ms name with
    | none => simp [proto]
    | some m =>
      obtain ⟨mem, same⟩ := mem_of_firstNamed first
      obtain ⟨payload, read⟩ := Option.isSome_iff_exists.mp (parsed m mem (.inr (same ▸ first)))
      simp [proto, read]

/-- A message that is added is found by its name. -/
theorem Named.concat {messages after : JsObject (MessageObject J)} (named : Named parse ms messages)
    (parsed : Parsed parse ms) (added : addMessage parse messages m = some after) :
    Named parse (ms ++ [m]) after ∧ (m.name = "__proto__" ∨ firstNamed ms m.name = none → (parse m.jsonSchema).isSome) := by
  rw [addMessage, named.any_eq parsed] at added
  split_ifs at added with present
  · obtain rfl := Option.some.inj added
    obtain ⟨own, found⟩ : m.name ≠ "__proto__" ∧ (firstNamed ms m.name).isSome := by simpa using present
    refine ⟨fun name => ?_, fun reads => ?_⟩
    · rw [named, firstNamed_concat]
      by_cases same : m.name = name
      · subst same
        obtain ⟨first, found⟩ := Option.isSome_iff_exists.mp found
        rw [found]
        rfl
      · rw [if_neg same, Option.or_none]
    · obtain proto | new := reads
      · exact absurd proto own
      · rw [new] at found
        cases found
  · obtain ⟨payload, read, rfl⟩ := Option.map_eq_some_iff.mp added
    refine ⟨fun name => ?_, fun _ => Option.isSome_of_eq_some read⟩
    by_cases own : m.name = "__proto__"
    · rw [JsObject.assign, if_pos own, named, firstNamed_concat]
      by_cases proto : name = "__proto__"
      · rw [if_pos proto, if_pos proto]
      · have apart : m.name ≠ name := fun same => proto (same.symm.trans own)
        rw [if_neg proto, if_neg proto, if_neg apart, Option.or_none]
    · rw [JsObject.lookup_assign own, named, firstNamed_concat]
      by_cases same : name = m.name
      · subst same
        have new : firstNamed ms m.name = none := by simpa [own] using present
        rw [if_pos rfl, if_neg own, new, if_pos rfl]
        simp [read]
      · rw [if_neg same, if_neg (Ne.symm same), Option.or_none]

/-- The messages can be added exactly if the first of each name can be parsed. -/
theorem messages_run (parse : String → Option J) (ms : List MessageDefinitionResult) :
    (Parsed parse ms → (ms.foldlM (addMessage parse) []).isSome) ∧
      ∀ messages, ms.foldlM (addMessage parse) [] = some messages → Parsed parse ms ∧ Named parse ms messages := by
  induction ms using List.reverseRecOn with
  | nil =>
    refine ⟨fun _ => rfl, fun messages built => ?_⟩
    obtain rfl := Option.some.inj built
    refine ⟨fun _ mem => (by cases mem), fun name => ?_⟩
    by_cases proto : name = "__proto__" <;> simp [proto, firstNamed]
  | append_singleton ms m ih =>
    obtain ⟨runs, spec⟩ := ih
    constructor
    · intro parsed
      obtain ⟨before, last⟩ := parsed_concat_iff.mp parsed
      obtain ⟨messages, built⟩ := Option.isSome_iff_exists.mp (runs before)
      obtain ⟨-, named⟩ := spec messages built
      rw [List.foldlM_append, built]
      have step : (addMessage parse messages m).isSome := by
        rw [addMessage, named.any_eq before]
        split_ifs with present
        · rfl
        · rw [Option.isSome_map]
          apply last
          by_cases own : m.name = "__proto__"
          · exact .inl own
          · exact .inr (by simpa [own] using present)
      simpa using step
    · intro messages built
      rw [List.foldlM_append] at built
      obtain ⟨before, first, last⟩ := Option.bind_eq_some_iff.mp built
      obtain ⟨parsed, named⟩ := spec before first
      obtain ⟨still, reads⟩ := named.concat (m := m) parsed (by simpa using last)
      exact ⟨parsed_concat_iff.mpr ⟨parsed, reads⟩, still⟩

end

/-! ## The document -/

section
variable {J : Type} {parse : String → Option J} {decode : String → Option String} {rootTopic : String}
  {app : ApplicationResult} {consumedLinks : List ApplicationLinkResult} {msgs : List MessageDefinitionResult}

def documentOf (app : ApplicationResult) (channels : JsObject Channel) (messages : JsObject (MessageObject J)) :
    AsyncApiDocument J where
  info := AsyncApiBuilder.buildInfo app
  channels := if channels.isEmpty then none else some channels
  messages := if messages.isEmpty then none else some messages

/-- Both passes are one over all links. -/
theorem build_eq : AsyncApiBuilder.build parse rootTopic app consumedLinks msgs = do
    let channels ← (directed app consumedLinks).foldlM (addChannel rootTopic msgs) []
    let messages ← (linkedMessages msgs (directed app consumedLinks)).foldlM (addMessage parse) []
    return documentOf app channels messages := by
  have own : AsyncApiBuilder.buildChannels [] rootTopic app.links false msgs = _ := buildChannels_eq _ _ .publish
  have consumed : ∀ result, AsyncApiBuilder.buildChannels result rootTopic consumedLinks true msgs = _ :=
    fun result => buildChannels_eq result _ .subscribe
  have ownMessages : AsyncApiBuilder.buildMessages parse [] app.links msgs = _ := buildMessages_eq _ _ .publish
  have consumedMessages : ∀ result, AsyncApiBuilder.buildMessages parse result consumedLinks msgs = _ :=
    fun result => buildMessages_eq result _ .subscribe
  rw [directed, linkedMessages_append, List.foldlM_append, List.foldlM_append, ← own, ← ownMessages]
  simp only [← consumed, ← consumedMessages, bind_assoc]
  rfl

/-- An object that is left out where it is empty has the same keys. -/
theorem bind_lookup {V : Type} (object : JsObject V) (key : String) :
    ((if object.isEmpty then none else some object).bind fun o => o.lookup key) = object.lookup key := by
  cases object <;> rfl

/-- A link has its operation exactly if it is spoken for. -/
theorem documents_iff {ls : List (ApplicationLinkResult × Direction)} {channels : JsObject Channel}
    {messages : JsObject (MessageObject J)} (lookups : ∀ topicName, channels.lookup (rootTopic ++ "/" ++ topicName) =
      (lastOn ls topicName).bind fun l => (messageOf msgs l.1).map fun message => channelTo l.2 message.name)
    (named : Named parse (linkedMessages msgs ls) messages) (l : ApplicationLinkResult × Direction)
    (message : MessageDefinitionResult) :
    Documents parse decode rootTopic (documentOf app channels messages) l message ↔
      SpokenFor parse decode msgs ls l message := by
  have channelAt : ∀ key, (documentOf app channels messages).channels.bind (fun o => o.lookup key) = channels.lookup key :=
    bind_lookup channels
  have messageAt : ∀ key, (documentOf app channels messages).messages.bind (fun o => o.lookup key) = messages.lookup key :=
    bind_lookup messages
  constructor
  · rintro ⟨channel, ref, schema, found, operation, read, text, name, rfl, decoded, resolved⟩
    rw [channelAt, lookups] at found
    obtain ⟨⟨last, direction⟩, isLast, found⟩ := Option.bind_eq_some_iff.mp found
    obtain ⟨sent, known, rfl⟩ := Option.map_eq_some_iff.mp found
    obtain ⟨rfl, same⟩ := ref_channelTo.mp operation
    obtain rfl := referenceTo_inj.mp same
    rw [messageAt, named] at resolved
    split_ifs at resolved with proto
    obtain ⟨first, isFirst, resolved⟩ := Option.bind_eq_some_iff.mp resolved
    obtain ⟨payload, firstRead, eq⟩ := Option.map_eq_some_iff.mp resolved
    obtain rfl : payload = schema := congrArg MessageObject.payload eq
    exact ⟨last, sent, name, first, payload, isLast, known, decoded, proto, isFirst, firstRead, read⟩
  · rintro ⟨last, sent, name, first, schema, isLast, known, decoded, proto, isFirst, firstRead, read⟩
    refine ⟨channelTo l.2 sent.name, referenceTo sent.name, schema, ?_, ref_channelTo.mpr ⟨rfl, rfl⟩, read,
      sent.name, name, rfl, decoded, ?_⟩
    · rw [channelAt, lookups, isLast, Option.bind_some, known]
      rfl
    · rw [messageAt, named, if_neg proto, isFirst, Option.bind_some, firstRead]
      rfl

/-- The document is complete exactly if every message is known and can be parsed, and each link is spoken for. -/
theorem buildsComplete_iff (parse : String → Option J) (decode : String → Option String) (rootTopic : String)
    (app : ApplicationResult) (consumedLinks : List ApplicationLinkResult) (msgs : List MessageDefinitionResult) :
    BuildsComplete parse decode rootTopic app consumedLinks msgs ↔
      CanDocument parse decode msgs (directed app consumedLinks) := by
  have run := messages_run parse (linkedMessages msgs (directed app consumedLinks))
  rw [BuildsComplete, build_eq]
  constructor
  · rintro ⟨document, built, documents⟩
    obtain ⟨channels, builtChannels, built⟩ := Option.bind_eq_some_iff.mp built
    obtain ⟨messages, builtMessages, built⟩ := Option.bind_eq_some_iff.mp built
    obtain rfl := Option.some.inj built
    obtain ⟨known, lookups⟩ := lookup_channels builtChannels
    obtain ⟨parsed, named⟩ := run.2 messages builtMessages
    refine ⟨known, parsed, fun l mem message found => ?_⟩
    exact (documents_iff lookups named l message).mp (documents l mem message found)
  · rintro ⟨known, parsed, spokenFor⟩
    obtain ⟨channels, builtChannels⟩ := Option.isSome_iff_exists.mp (channels_isSome rootTopic known [])
    obtain ⟨messages, builtMessages⟩ := Option.isSome_iff_exists.mp (run.1 parsed)
    obtain ⟨-, lookups⟩ := lookup_channels builtChannels
    obtain ⟨-, named⟩ := run.2 messages builtMessages
    refine ⟨documentOf app channels messages, ?_, fun l mem message found => ?_⟩
    · rw [builtChannels, builtMessages]
      rfl
    · exact (documents_iff lookups named l message).mpr (spokenFor l mem message found)

/-- An application that publishes on a topic and consumes from it loses the publication. -/
theorem not_buildsComplete_bothDirections :
    ¬ BuildsComplete (fun text => some text) some "root"
      { links := [{ topicName := "orders", messageId := some "1" }] } [{ topicName := "orders", messageId := some "1" }]
      [{ id := "1", name := "order", jsonSchema := "\x7b\x7d" }] := by
  rintro ⟨document, built, documents⟩
  have consumed : (AsyncApiBuilder.build (fun text => some text) "root"
      { links := [{ topicName := "orders", messageId := some "1" }] } [{ topicName := "orders", messageId := some "1" }]
      [{ id := "1", name := "order", jsonSchema := "\x7b\x7d" }]).bind (fun d => d.channels.bind (·.lookup "root/orders")) =
      some { subscribe := some "#/components/messages/order" } := by
    decide
  rw [built] at consumed
  obtain ⟨channel, ref, schema, found, published, -⟩ := documents ({ topicName := "orders", messageId := some "1" }, .publish)
    List.mem_cons_self { id := "1", name := "order", jsonSchema := "\x7b\x7d" } rfl
  have same : channel = { subscribe := some "#/components/messages/order" } :=
    Option.some.inj (found.symm.trans consumed)
  rw [same] at published
  cases published

end

end FaasNet.AsyncApi
