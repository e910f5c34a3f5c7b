import FaasNet.StateMachine.TreeNodes
import Mathlib.Data.List.Forall2

/-!
# JSON objects in YAML

`YamlJObjectConverter` emits an object as a mapping. There are two ways back: `ReadYaml`, and for the data of a state
`TreeNode.Build`. Each of the three has its own switch over the types of tokens, and none of them knows all.
-/

namespace FaasNet.StateMachine

open FaasNet.Common

/-! ## Tokens -/

/-- The tokens that a text of JSON has. Nothing here looks at a float. -/
inductive JToken where
  | object (properties : List (String × JToken))
  | array (items : List JToken)
  | integer (value : Int)
  | float (literal : String)
  | string (value : String)
  | boolean (value : Bool)
  | null

namespace JToken

mutual

/-- No object in it has two properties of one name. -/
def Distinct : JToken → Prop
  | object properties => (properties.map (·.1)).Nodup ∧ RecordsDistinct properties
  | array items => ItemsDistinct items
  | _ => True

/-- The names in the objects among the properties are distinct. -/
def RecordsDistinct : List (String × JToken) → Prop
  | [] => True
  | (_, value) :: properties => value.Distinct ∧ RecordsDistinct properties

/-- The names in the objects among the items are distinct. -/
def ItemsDistinct : List JToken → Prop
  | [] => True
  | item :: items => item.Distinct ∧ ItemsDistinct items

end

end JToken

/-- An object of JSON, with distinct names. -/
structure JObject where
  properties : List (String × JToken)
  distinct : (JToken.object properties).Distinct

/-! ## Texts -/

/-- The white space of `int.TryParse`. -/
def isWhite (c : Char) : Bool := c.toNat = 0x20 || (0x9 ≤ c.toNat && c.toNat ≤ 0xD)

/-- `int.TryParse`: white space, a sign, digits, white space, null characters. -/
def intTryParse (text : String) : Option Int :=
  let number := text.toList.dropWhile isWhite
  let (negative, number) := match number with
    | '-' :: number => (true, number)
    | '+' :: number => (false, number)
    | number => (false, number)
  let digits := number.takeWhile Char.isDigit
  let trailing := (number.dropWhile Char.isDigit).dropWhile isWhite
  let value : Int := if negative then -(Nat.ofDigitChars 10 digits 0) else Nat.ofDigitChars 10 digits 0
  if !digits.isEmpty && trailing.all (·.toNat = 0) && -2147483648 ≤ value && value ≤ 2147483647 then some value else none

/-- `bool.TryParse`: white space and null characters around it are left out. -/
def boolTryParse (text : String) : Option Bool :=
  let outside (c : Char) : Bool := isWhiteSpace c || c.toNat = 0
  let trimmed := ((text.toList.dropWhile outside).reverse.dropWhile outside).reverse.map Char.toLower
  if trimmed = "true".toList then some true else if trimmed = "false".toList then some false else none

/-! ## The writer -/

namespace YamlJObjectConverter

section
-- `JArray.ToString`
variable (arrayToString : List JToken → String)

/-- The events of a mapping. -/
def mappingEvents (records : List ParsingEvent) : List ParsingEvent := .mappingStart :: (records ++ [.mappingEnd])

mutual

/-- The loop of `WriteYaml` over the properties. -/
def writeRecords : List (String × JToken) → Except SerializerException (List ParsingEvent)
  | [] => pure []
  | (key, value) :: properties => do
    let value ← writeValue value
    let records ← writeRecords properties
    pure (.scalar key :: (value ++ records))

/-- What is emitted after a key: nothing for the types that the switch does not have. -/
def writeValue : JToken → Except SerializerException (List ParsingEvent)
  | .object properties => mappingEvents <$> writeRecords properties
  | .integer value => pure [.scalar (toString value)]
  | .string value => pure [.scalar value]
  | .array items => do
    let events ← writeItems (arrayToString items) items
    pure (.sequenceStart :: (events ++ [.sequenceEnd]))
  | .float _ | .boolean _ | .null => pure []

/-- The loop over the items of an array; an integer is emitted as the text of the array. -/
def writeItems (array : String) : List JToken → Except SerializerException (List ParsingEvent)
  | [] => pure []
  | .integer _ :: items => do
    let events ← writeItems array items
    pure (.scalar array :: events)
  | .string value :: items => do
    let events ← writeItems array items
    pure (.scalar value :: events)
  | .object properties :: items => do
    let records ← writeRecords properties
    let events ← writeItems array items
    pure (mappingEvents records ++ events)
  -- `WriteYaml` of something that is no object.
  | _ :: _ => throw .nullReference

end

/-- `WriteYaml`. -/
def writeYaml (jObj : JObject) : Except SerializerException (List ParsingEvent) :=
  mappingEvents <$> writeRecords arrayToString jObj.properties

end

/-! ## The readers -/

/-- `JObject.Add`. -/
def add (jObj : List (String × JToken)) (key : String) (value : JToken) :
    Except SerializerException (List (String × JToken)) :=
  if key ∈ jObj.map (·.1) then throw .argument else pure (jObj ++ [(key, value)])

mutual

/-- `Build` of the converter. -/
def build (jObj : List (String × JToken)) : List (String × TreeNode) → Except SerializerException (List (String × JToken))
  | [] => pure jObj
  | (key, node) :: nodes => do
    let value ← buildValue node
    let jObj ← add jObj key value
    build jObj nodes

/-- What is added for a node. -/
def buildValue : TreeNode → Except SerializerException JToken
  | .property value => pure (value.elim .null .string)
  | .object children => .object <$> build [] children
  | .array children => .array <$> buildItems children

/-- The children of an array, one by one. -/
def buildItems : List TreeNode → Except SerializerException (List JToken)
  | [] => pure []
  | child :: children => do
    let item ← buildItem child
    let items ← buildItems children
    pure (item :: items)

/-- `Build` of the children of an item: a property has none, and those of an array have no key. -/
def buildItem : TreeNode → Except SerializerException JToken
  | .property _ => pure (.object [])
  | .object children => .object <$> build [] children
  | .array [] => pure (.object [])
  | .array (child :: _) => do
    let _ ← buildValue child
    throw .argument

end

/-- `ReadYaml`. -/
def readYaml (parser : List ParsingEvent) :
    Except SerializerException (List (String × JToken) × List ParsingEvent) := do
  let (nodes, parser) ← ParserExtensions.extract parser
  let jObj ← build [] nodes
  pure (jObj, parser)

end YamlJObjectConverter

namespace TreeNode

open YamlJObjectConverter (add)

mutual

/-- `TreeNode.Build` of some nodes into an object. -/
def buildInto (jObj : List (String × JToken)) :
    List (String × TreeNode) → Except SerializerException (List (String × JToken))
  | [] => pure jObj
  | (key, node) :: nodes => do
    let value ← node.token
    let jObj ← add jObj key value
    buildInto jObj nodes

/-- What is added for a node. The items of an array are built as objects, but have no key. -/
def token : TreeNode → Except SerializerException JToken
  | property none => pure .null
  | property (some value) => pure <|
    match intTryParse value, boolTryParse value with
    | some n, _ => .integer n
    | none, some b => .boolean b
    | none, none => .string value
  | object children => .object <$> buildInto [] children
  | array [] => pure (.array [])
  | array (child :: _) => do
    let _ ← child.token
    throw .argument

end

/-- What is set of a node for a property of the type `JObject`, if anything: `node.Build().SelectToken(node.Key)`. The key is
the name of a property, so it is a path to itself. -/
def selected (node : String × TreeNode) : Except SerializerException (Option (List (String × JToken))) := do
  let jObj ← buildInto [] [node]
  match jObj.find? (·.1 = node.1) with
  | some (_, .object properties) => pure (some properties)
  | _ => pure none

/-- The value of a property of a state, at the parser. -/
def readData (key : String) (parser : List ParsingEvent) :
    Except SerializerException (Option (List (String × JToken)) × List ParsingEvent) := do
  let (children, parser) ← ParserExtensions.extract parser
  let value ← selected (key, .object children)
  pure (value, parser)

end TreeNode

/-! ## What is written -/

namespace JToken

mutual

/-- There is one value for each key. -/
def OneValueEach : JToken → YamlNode → Prop
  | object properties, .mapping records => RecordsEach properties records
  | array items, .sequence nodes => ItemsEach items nodes
  | object _, _ => False
  | array _, _ => False
  | _, .scalar _ => True
  | _, _ => False

/-- Each property has a record under its key, and one value for each of its own. -/
def RecordsEach : List (String × JToken) → List (String × YamlNode) → Prop
  | [], [] => True
  | (key, value) :: properties, (key', node) :: records =>
    key = key' ∧ value.OneValueEach node ∧ RecordsEach properties records
  | _, _ => False

/-- Each item has a node with one value for each of its own. -/
def ItemsEach : List JToken → List YamlNode → Prop
  | [], [] => True
  | item :: items, node :: nodes => item.OneValueEach node ∧ ItemsEach items nodes
  | _, _ => False

end

mutual

/-- How many events that takes. -/
def size : JToken → Nat
  | object properties => recordsSize properties + 2
  | array items => itemsSize items + 2
  | _ => 1

/-- The events that properties count. -/
def recordsSize : List (String × JToken) → Nat
  | [] => 0
  | (_, value) :: properties => value.size + recordsSize properties + 1

/-- The events that items count. -/
def itemsSize : List JToken → Nat
  | [] => 0
  | item :: items => item.size + itemsSize items

end

mutual

/-- The writer has a case for each of the tokens in it, where it is. -/
def isWritten : JToken → Bool
  | object properties => recordsWritten properties
  | array items => itemsWritten items
  | integer _ | string _ => true
  | float _ | boolean _ | null => false

/-- All properties are written. -/
def recordsWritten : List (String × JToken) → Bool
  | [] => true
  | (_, value) :: properties => value.isWritten && recordsWritten properties

/-- All items are written. -/
def itemsWritten : List JToken → Bool
  | [] => true
  | array _ :: _ => false
  | item :: items => item.isWritten && itemsWritten items

end

section
variable (arrayToString : List JToken → String)

mutual

/-- What it is written as. -/
def yaml : JToken → YamlNode
  | object properties => .mapping (recordsYaml properties)
  | array items => .sequence (itemsYaml (arrayToString items) items)
  | integer value => .scalar (toString value)
  | string value => .scalar value
  | float _ | boolean _ | null => .scalar ""

/-- The records of properties. -/
def recordsYaml : List (String × JToken) → List (String × YamlNode)
  | [] => []
  | (key, value) :: properties => (key, value.yaml) :: recordsYaml properties

/-- The nodes of items. -/
def itemsYaml (array : String) : List JToken → List YamlNode
  | [] => []
  | integer _ :: items => .scalar array :: itemsYaml array items
  | item :: items => item.yaml :: itemsYaml array items

end

end

end JToken

section
variable {arrayToString : List JToken → String}

open JToken YamlNode YamlJObjectConverter

mutual

/-- A value has as many events as it counts. -/
theorem length_events : ∀ {value : JToken} {node : YamlNode}, value.OneValueEach node → node.events.length = value.size
  | .object properties, .mapping records, each => by
    simp [events, size, length_recordEvents (by simpa [OneValueEach] using each)]
  | .array items, .sequence nodes, each => by
    simp [events, size, length_itemEvents (by simpa [OneValueEach] using each)]
  | .integer _, .scalar _, _ => rfl
  | .float _, .scalar _, _ => rfl
  | .string _, .scalar _, _ => rfl
  | .boolean _, .scalar _, _ => rfl
  | .null, .scalar _, _ => rfl

theorem length_recordEvents : ∀ {properties : List (String × JToken)} {records : List (String × YamlNode)},
    RecordsEach properties records → (recordEvents records).length = recordsSize properties
  | [], [], _ => rfl
  | (key, value) :: properties, (key', node) :: records, each => by
    obtain ⟨-, here, others⟩ := each
    simp [recordEvents, recordsSize, length_events here, length_recordEvents others]

theorem length_itemEvents : ∀ {items : List JToken} {nodes : List YamlNode},
    ItemsEach items nodes → (itemEvents nodes).length = itemsSize items
  | [], [], _ => rfl
  | item :: items, node :: nodes, each => by
    obtain ⟨here, others⟩ := each
    simp [itemEvents, itemsSize, length_events here, length_itemEvents others]

end

mutual

/-- What the writer has a case for is written, with one value for each key. -/
theorem writeValue_yaml : ∀ {value : JToken}, value.isWritten →
    writeValue arrayToString value = .ok (value.yaml arrayToString).events ∧ value.OneValueEach (value.yaml arrayToString)
  | .object properties, written => by
    obtain ⟨writes, each⟩ := writeRecords_yaml written
    exact ⟨by rw [writeValue, writes]; rfl, each⟩
  | .array items, written => by
    obtain ⟨writes, each⟩ := writeItems_yaml (arrayToString items) written
    exact ⟨by rw [writeValue, writes]; rfl, each⟩
  | .integer value, _ => ⟨rfl, trivial⟩
  | .string value, _ => ⟨rfl, trivial⟩

/-- Written properties give the events of their records. -/
theorem writeRecords_yaml : ∀ {properties : List (String × JToken)}, recordsWritten properties →
    writeRecords arrayToString properties = .ok (recordEvents (recordsYaml arrayToString properties)) ∧
      RecordsEach properties (recordsYaml arrayToString properties)
  | [], _ => ⟨rfl, trivial⟩
  | (key, value) :: properties, written => by
    obtain ⟨first, rest⟩ := Bool.and_eq_true_iff.mp written
    obtain ⟨writes, each⟩ := writeValue_yaml first
    obtain ⟨writes', each'⟩ := writeRecords_yaml rest
    exact ⟨by rw [writeRecords, writes, writes']; rfl, rfl, each, each'⟩

/-- Written items give the events of their nodes. -/
theorem writeItems_yaml (array : String) : ∀ {items : List JToken}, itemsWritten items →
    writeItems arrayToString array items = .ok (itemEvents (itemsYaml arrayToString array items)) ∧
      ItemsEach items (itemsYaml arrayToString array items)
  | [], _ => ⟨rfl, trivial⟩
  | .integer _ :: items, written => by
    obtain ⟨writes, each⟩ := writeItems_yaml array (Bool.and_eq_true_iff.mp written).2
    exact ⟨by rw [writeItems, writes]; rfl, trivial, each⟩
  | .string value :: items, written => by
    obtain ⟨writes, each⟩ := writeItems_yaml array (Bool.and_eq_true_iff.mp written).2
    exact ⟨by rw [writeItems, writes]; rfl, trivial, each⟩
  | .object properties :: items, written => by
    obtain ⟨first, rest⟩ := Bool.and_eq_true_iff.mp written
    obtain ⟨writes, each⟩ := writeRecords_yaml first
    obtain ⟨writes', each'⟩ := writeItems_yaml array rest
    exact ⟨by rw [writeItems, writes, writes']; rfl, each, each'⟩

end

mutual

/-- What is emitted is at most one value for each key, and less if the writer lacks a case. -/
theorem size_of_writeValue : ∀ {value : JToken} {events : List ParsingEvent},
    writeValue arrayToString value = .ok events →
    events.length ≤ value.size ∧ (value.size ≤ events.length → value.isWritten)
  | .object properties, events, writes => by
    rw [writeValue] at writes
    cases records : writeRecords arrayToString properties with
    | error e => rw [records] at writes; cases writes
    | ok given =>
      rw [records] at writes
      obtain rfl := Except.ok.inj writes
      obtain ⟨least, all⟩ := size_of_writeRecords records
      simp only [mappingEvents, List.length_cons, List.length_append, List.length_nil, size, isWritten]
      exact ⟨by omega, fun enough => all (by omega)⟩
  | .array items, events, writes => by
    rw [writeValue] at writes
    cases inner : writeItems arrayToString (arrayToString items) items with
    | error e => rw [inner] at writes; cases writes
    | ok given =>
      rw [inner] at writes
      obtain rfl := Except.ok.inj writes
      obtain ⟨least, all⟩ := size_of_writeItems inner
      simp only [List.length_cons, List.length_append, List.length_nil, size, isWritten]
      exact ⟨by omega, fun enough => all (by omega)⟩
  | .integer value, events, writes => by
    obtain rfl := Except.ok.inj writes
    exact ⟨Nat.le_refl _, fun _ => rfl⟩
  | .string value, events, writes => by
    obtain rfl := Except.ok.inj writes
    exact ⟨Nat.le_refl _, fun _ => rfl⟩
  | .float _, events, writes => by
    obtain rfl := Except.ok.inj writes
    exact ⟨Nat.zero_le _, fun enough => absurd enough (by simp [size])⟩
  | .boolean _, events, writes => by
    obtain rfl := Except.ok.inj writes
    exact ⟨Nat.zero_le _, fun enough => absurd enough (by simp [size])⟩
  | .null, events, writes => by
    obtain rfl := Except.ok.inj writes
    exact ⟨Nat.zero_le _, fun enough => absurd enough (by simp [size])⟩

/-- Properties never have more events than they count, and as many only if all are written. -/
theorem size_of_writeRecords : ∀ {properties : List (String × JToken)} {events : List ParsingEvent},
    writeRecords arrayToString properties = .ok events →
    events.length ≤ recordsSize properties ∧ (recordsSize properties ≤ events.length → recordsWritten properties)
  | [], events, writes => by
    obtain rfl := Except.ok.inj writes
    exact ⟨Nat.le_refl _, fun _ => rfl⟩
  | (key, value) :: properties, events, writes => by
    rw [writeRecords] at writes
    cases first : writeValue arrayToString value with
    | error e => rw [first] at writes; cases writes
    | ok here =>
      cases rest : writeRecords arrayToString properties with
      | error e => rw [first, rest] at writes; cases writes
      | ok others =>
        rw [first, rest] at writes
        obtain rfl := Except.ok.inj writes
        obtain ⟨least, all⟩ := size_of_writeValue first
        obtain ⟨least', all'⟩ := size_of_writeRecords rest
        simp only [List.length_cons, List.length_append, recordsSize, recordsWritten, Bool.and_eq_true]
        exact ⟨by omega, fun enough => ⟨all (by omega), all' (by omega)⟩⟩

theorem size_of_writeItems : ∀ {items : List JToken} {text : String} {events : List ParsingEvent},
    writeItems arrayToString text items = .ok events →
    events.length ≤ itemsSize items ∧ (itemsSize items ≤ events.length → itemsWritten items)
  | [], text, events, writes => by
    obtain rfl := Except.ok.inj writes
    exact ⟨Nat.le_refl _, fun _ => rfl⟩
  | .integer _ :: items, text, events, writes => by
    rw [writeItems] at writes
    cases rest : writeItems arrayToString text items with
    | error e => rw [rest] at writes; cases writes
    | ok others =>
      rw [rest] at writes
      obtain rfl := Except.ok.inj writes
      obtain ⟨least, all⟩ := size_of_writeItems rest
      simp only [List.length_cons, itemsSize, size, itemsWritten, isWritten, Bool.true_and]
      exact ⟨by omega, fun enough => all (by omega)⟩
  | .string _ :: items, text, events, writes => by
    rw [writeItems] at writes
    cases rest : writeItems arrayToString text items with
    | error e => rw [rest] at writes; cases writes
    | ok others =>
      rw [rest] at writes
      obtain rfl := Except.ok.inj writes
      obtain ⟨least, all⟩ := size_of_writeItems rest
      simp only [List.length_cons, itemsSize, size, itemsWritten, isWritten, Bool.true_and]
      exact ⟨by omega, fun enough => all (by omega)⟩
  | .object properties :: items, text, events, writes => by
    rw [writeItems] at writes
    cases first : writeRecords arrayToString properties with
    | error e => rw [first] at writes; cases writes
    | ok records =>
      cases rest : writeItems arrayToString text items with
      | error e => rw [first, rest] at writes; cases writes
      | ok others =>
        rw [first, rest] at writes
        obtain rfl := Except.ok.inj writes
        obtain ⟨least, all⟩ := size_of_writeRecords first
        obtain ⟨least', all'⟩ := size_of_writeItems rest
        simp only [mappingEvents, List.length_cons, List.length_append, List.length_nil, itemsSize, size, itemsWritten,
          isWritten, Bool.and_eq_true]
        exact ⟨by omega, fun enough => ⟨all (by omega), all' (by omega)⟩⟩

end

/-- The writer emits one value for each key exactly if it has a case for each of the tokens. -/
theorem recordsWritten_iff {properties : List (String × JToken)} :
    (∃ records, RecordsEach properties records ∧
      writeRecords arrayToString properties = .ok (recordEvents records)) ↔ recordsWritten properties := by
  constructor
  · rintro ⟨records, each, writes⟩
    exact (size_of_writeRecords writes).2 (Nat.le_of_eq (length_recordEvents each).symm)
  · intro written
    obtain ⟨writes, each⟩ := writeRecords_yaml written
    exact ⟨_, each, writes⟩

end

/-! ## What is read -/

namespace YamlJObjectConverter

/-- The loop of both readers: the value of each node is added under its key. -/
def addAll (value : TreeNode → Except SerializerException JToken) (jObj : List (String × JToken)) :
    List (String × TreeNode) → Except SerializerException (List (String × JToken))
  | [] => pure jObj
  | (key, node) :: nodes => do
    let value' ← value node
    let jObj ← add jObj key value'
    addAll value jObj nodes

/-- The converter adds the records one by one. -/
theorem build_eq_addAll (jObj : List (String × JToken)) (nodes : List (String × TreeNode)) :
    build jObj nodes = addAll buildValue jObj nodes := by
  induction nodes generalizing jObj with
  | nil => rfl
  | cons node nodes ih => simp only [build, addAll, ih]

/-- The records of a tree are added one by one. -/
theorem buildInto_eq_addAll (jObj : List (String × JToken)) (nodes : List (String × TreeNode)) :
    TreeNode.buildInto jObj nodes = addAll TreeNode.token jObj nodes := by
  induction nodes generalizing jObj with
  | nil => rfl
  | cons node nodes ih => simp only [TreeNode.buildInto, addAll, ih]

/-- The node is read as the property. -/
def ReadAs (value : TreeNode → Except SerializerException JToken) (node : String × TreeNode)
    (property : String × JToken) : Prop :=
  node.1 = property.1 ∧ value node.2 = .ok property.2

/-- Records that are read are added. -/
theorem addAll_of_readAs {value : TreeNode → Except SerializerException JToken} {nodes : List (String × TreeNode)}
    {properties : List (String × JToken)} (read : List.Forall₂ (ReadAs value) nodes properties) :
    ∀ jObj, ((jObj ++ properties).map (·.1)).Nodup → addAll value jObj nodes = .ok (jObj ++ properties) := by
  induction read with
  | nil => simp [addAll, pure, Except.pure]
  | @cons node property nodes properties here _ ih =>
    intro jObj distinct
    obtain ⟨key, node⟩ := node
    obtain ⟨rfl, given⟩ := here
    have new : property.1 ∉ jObj.map (·.1) := by
      rw [List.map_append, List.nodup_append] at distinct
      exact fun known => distinct.2.2 _ known _ (by simp) rfl
    have adds : add jObj property.1 property.2 = .ok (jObj ++ [property]) := if_neg new
    have rest := ih (jObj ++ [property]) (by simpa using distinct)
    rw [List.append_assoc, List.singleton_append] at rest
    rw [addAll, given]
    exact (congrArg (· >>= fun jObj => addAll value jObj nodes) adds).trans rest

/-- Records that were added were read. -/
theorem readAs_of_addAll {value : TreeNode → Except SerializerException JToken} {nodes : List (String × TreeNode)}
    {jObj result : List (String × JToken)} (read : addAll value jObj nodes = .ok result) :
    ∃ properties, result = jObj ++ properties ∧ List.Forall₂ (ReadAs value) nodes properties := by
  induction nodes generalizing jObj with
  | nil => exact ⟨[], by simpa using (Except.ok.inj read).symm, .nil⟩
  | cons node nodes ih =>
    obtain ⟨key, node⟩ := node
    rw [addAll] at read
    cases given : value node with
    | error e =>
      rw [given] at read
      cases read
    | ok token =>
      rw [given] at read
      by_cases known : key ∈ jObj.map (·.1)
      · have refused : add jObj key token = .error .argument := if_pos known
        cases (congrArg (· >>= fun jObj => addAll value jObj nodes) refused).symm.trans read
      · have adds : add jObj key token = .ok (jObj ++ [(key, token)]) := if_neg known
        obtain ⟨properties, rfl, others⟩ := ih ((congrArg (· >>= fun jObj => addAll value jObj nodes) adds).symm.trans read)
        exact ⟨(key, token) :: properties, by simp, .cons ⟨rfl, given⟩ others⟩

/-- An object with different names is read exactly if each of its properties is. -/
theorem addAll_eq_ok_iff {value : TreeNode → Except SerializerException JToken} {nodes : List (String × TreeNode)}
    {properties : List (String × JToken)} (distinct : (properties.map (·.1)).Nodup) :
    addAll value [] nodes = .ok properties ↔ List.Forall₂ (ReadAs value) nodes properties := by
  constructor
  · intro read
    obtain ⟨properties', rfl, each⟩ := readAs_of_addAll read
    exact each
  · exact fun read => addAll_of_readAs read [] distinct

end YamlJObjectConverter

/-! ## What survives -/

namespace JToken

mutual

/-- A text that is no other token, or an object that has something in it, and only such values. -/
def isPlain : JToken → Bool
  | object properties => !properties.isEmpty && recordsPlain properties
  | string value => (intTryParse value).isNone && (boolTryParse value).isNone
  | _ => false

/-- All properties are plain. -/
def recordsPlain : List (String × JToken) → Bool
  | [] => true
  | (_, value) :: properties => value.isPlain && recordsPlain properties

end

end JToken

section
variable {arrayToString : List JToken → String}

open JToken YamlNode YamlJObjectConverter

theorem object_eq_ok_iff {read : Except SerializerException (List (String × JToken))} {properties : List (String × JToken)} :
    JToken.object <$> read = .ok (.object properties) ↔ read = .ok properties := by
  cases read with
  | error e => simp [Functor.map, Except.map]
  | ok given => simp [Functor.map, Except.map]

theorem isEmpty_recordsYaml (properties : List (String × JToken)) :
    (recordsYaml arrayToString properties).isEmpty = properties.isEmpty := by
  cases properties <;> rfl

mutual

/-- What both readers give back. -/
theorem isPlain_iff : ∀ {value : JToken}, value.Distinct → value.isWritten →
    ((value.yaml arrayToString).isExtractable ∧ buildValue (value.yaml arrayToString).treeNode = .ok value ∧
      (value.yaml arrayToString).treeNode.token = .ok value ↔ value.isPlain)
  | .object properties, ⟨nodup, distinct⟩, written => by
    have inner := @recordsPlain_iff properties distinct written
    rw [yaml, isExtractable, treeNode, buildValue, TreeNode.token, isPlain, Bool.and_eq_true, Bool.and_eq_true, ← inner,
      isEmpty_recordsYaml, build_eq_addAll, buildInto_eq_addAll, ← addAll_eq_ok_iff nodup, ← addAll_eq_ok_iff nodup,
      object_eq_ok_iff, object_eq_ok_iff, and_assoc]
  | .array items, distinct, written => by
    refine iff_of_false ?_ Bool.false_ne_true
    rintro ⟨extractable, -, built⟩
    rw [yaml, treeNode] at built
    rw [yaml, isExtractable] at extractable
    cases nodes : itemsYaml arrayToString (arrayToString items) items with
    | nil => simp [nodes] at extractable
    | cons node nodes =>
      rw [nodes, treeItems, TreeNode.token] at built
      cases token : node.treeNode.token with
      | error e =>
        rw [token] at built
        cases built
      | ok given =>
        rw [token] at built
        cases built
  | .integer value, _, _ => by
    refine iff_of_false ?_ Bool.false_ne_true
    rintro ⟨-, read, -⟩
    cases read
  | .string value, _, _ => by
    rw [yaml, isExtractable, treeNode, buildValue, TreeNode.token, isPlain, Bool.and_eq_true]
    cases intTryParse value with
    | some n => simp [pure, Except.pure]
    | none =>
      cases boolTryParse value with
      | some b => simp [pure, Except.pure]
      | none => simp [pure, Except.pure]

/-- Properties are read back exactly if they are plain. -/
theorem recordsPlain_iff : ∀ {properties : List (String × JToken)}, RecordsDistinct properties →
    recordsWritten properties →
    (recordsExtractable (recordsYaml arrayToString properties) ∧
      List.Forall₂ (ReadAs buildValue) (treeRecords (recordsYaml arrayToString properties)) properties ∧
      List.Forall₂ (ReadAs TreeNode.token) (treeRecords (recordsYaml arrayToString properties)) properties ↔
        recordsPlain properties)
  | [], _, _ => by simp [recordsYaml, recordsExtractable, treeRecords, recordsPlain]
  | (key, value) :: properties, ⟨distinct, distinct'⟩, written => by
    obtain ⟨first, rest⟩ := Bool.and_eq_true_iff.mp written
    have here := @isPlain_iff value distinct first
    have others := @recordsPlain_iff properties distinct' rest
    rw [recordsYaml, recordsExtractable, treeRecords, recordsPlain, Bool.and_eq_true, Bool.and_eq_true, ← here, ← others,
      List.forall₂_cons, List.forall₂_cons]
    simp only [ReadAs, true_and]
    tauto

end

mutual

/-- The writer has a case for these tokens. -/
theorem isWritten_of_isPlain : ∀ {value : JToken}, value.isPlain → value.isWritten
  | .object _, plain => recordsWritten_of_recordsPlain (Bool.and_eq_true_iff.mp plain).2
  | .string _, _ => rfl

theorem recordsWritten_of_recordsPlain : ∀ {properties : List (String × JToken)},
    recordsPlain properties → recordsWritten properties
  | [], _ => rfl
  | (_, _) :: _, plain => by
    obtain ⟨first, rest⟩ := Bool.and_eq_true_iff.mp plain
    exact Bool.and_eq_true_iff.mpr ⟨isWritten_of_isPlain first, recordsWritten_of_recordsPlain rest⟩

end

/-- The stream that is emitted of an object has one value for each key, and both ways back give the object, whatever follows
in the parser. -/
structure SurvivesYaml (arrayToString : List JToken → String) (j : JObject) : Prop where
  wellFormed : ∃ records, RecordsEach j.properties records ∧
    writeYaml arrayToString j = .ok (YamlNode.mapping records).events
  read : ∀ stream rest, writeYaml arrayToString j = .ok stream → readYaml (stream ++ rest) = .ok (j.properties, rest)
  built : ∀ key stream rest, writeYaml arrayToString j = .ok stream →
    TreeNode.readData key (stream ++ rest) = .ok (some j.properties, rest)

/-- The events of a mapping are told from those of another. -/
theorem mappingEvents_inj {events events' : List ParsingEvent} (same : mappingEvents events = mappingEvents events') :
    events = events' := by
  simpa [mappingEvents] using same

/-- An object is written as a mapping exactly if its properties are written as its records. -/
theorem writeYaml_eq_ok {j : JObject} {records : List (String × YamlNode)} :
    writeYaml arrayToString j = .ok (YamlNode.mapping records).events ↔
      writeRecords arrayToString j.properties = .ok (recordEvents records) := by
  unfold writeYaml
  cases writeRecords arrayToString j.properties with
  | error e => simp [Functor.map, Except.map]
  | ok given =>
    constructor
    · exact fun written => congrArg _ (mappingEvents_inj (Except.ok.inj written))
    · intro written
      obtain rfl := Except.ok.inj written
      rfl

/-- The object under a key, out of what `Build` makes of its node. -/
theorem selected_object (key : String) (children : List (String × TreeNode)) :
    TreeNode.selected (key, .object children) = some <$> TreeNode.buildInto [] children := by
  unfold TreeNode.selected
  rw [TreeNode.buildInto, TreeNode.token]
  cases TreeNode.buildInto [] children with
  | error e => rfl
  | ok properties => simp [Functor.map, Except.map, bind, Except.bind, add, TreeNode.buildInto, pure, Except.pure]

/-- A mapping is read from its events, whatever comes behind. -/
theorem readYaml_events {records : List (String × YamlNode)} (rest : List ParsingEvent) (properties : List (String × JToken)) :
    readYaml ((YamlNode.mapping records).events ++ rest) = .ok (properties, rest) ↔
      (YamlNode.mapping records).isExtractable ∧ build [] (treeRecords records) = .ok properties := by
  rw [readYaml, ParserExtensions.extract_events]
  cases (YamlNode.mapping records).isExtractable with
  | false => simp [bind, Except.bind]
  | true =>
    cases given : build [] (treeRecords records) with
    | error e => simp [bind, Except.bind, given]
    | ok jObj => simp [bind, Except.bind, pure, Except.pure, given]

/-- The data are read from the events of a mapping, whatever comes behind. -/
theorem readData_events {records : List (String × YamlNode)} (key : String) (rest : List ParsingEvent)
    (properties : List (String × JToken)) :
    TreeNode.readData key ((YamlNode.mapping records).events ++ rest) = .ok (some properties, rest) ↔
      (YamlNode.mapping records).isExtractable ∧ TreeNode.buildInto [] (treeRecords records) = .ok properties := by
  rw [TreeNode.readData, ParserExtensions.extract_events]
  cases (YamlNode.mapping records).isExtractable with
  | false => simp [bind, Except.bind]
  | true =>
    simp only [cond_true, bind, Except.bind, selected_object]
    cases TreeNode.buildInto [] (treeRecords records) with
    | error e => simp [Functor.map, Except.map]
    | ok jObj => simp [Functor.map, Except.map, pure, Except.pure]

/-- **An object survives YAML exactly if it has something in it, and only texts that are no other token and such objects.** -/
theorem survivesYaml_iff (arrayToString : List JToken → String) (j : JObject) :
    SurvivesYaml arrayToString j ↔ (JToken.object j.properties).isPlain := by
  have plain (written : recordsWritten j.properties) := @isPlain_iff arrayToString (.object j.properties) j.distinct written
  constructor
  · intro survives
    obtain ⟨records, each, writes⟩ := survives.wellFormed
    have written : recordsWritten j.properties :=
      recordsWritten_iff.mp ⟨records, each, writeYaml_eq_ok.mp writes⟩
    have stream := writeYaml_eq_ok.mpr (@writeRecords_yaml arrayToString j.properties written).1
    obtain ⟨extractable, read⟩ := (readYaml_events [] _).mp (survives.read _ [] stream)
    obtain ⟨-, built⟩ := (readData_events "" [] _).mp (survives.built "" _ [] stream)
    exact (plain written).mp ⟨extractable, object_eq_ok_iff.mpr read, object_eq_ok_iff.mpr built⟩
  · intro isPlain
    have written : recordsWritten j.properties := isWritten_of_isPlain isPlain
    obtain ⟨extractable, read, built⟩ := (plain written).mpr isPlain
    obtain ⟨writes, each⟩ := @writeRecords_yaml arrayToString j.properties written
    have stream := writeYaml_eq_ok.mpr writes
    refine ⟨⟨_, each, stream⟩, fun stream' rest given => ?_, fun key stream' rest given => ?_⟩
    · obtain rfl := Except.ok.inj (stream.symm.trans given)
      exact (readYaml_events rest _).mpr ⟨extractable, object_eq_ok_iff.mp read⟩
    · obtain rfl := Except.ok.inj (stream.symm.trans given)
      exact (readData_events key rest _).mpr ⟨extractable, object_eq_ok_iff.mp built⟩

end

/-- An object in an object, with texts. -/
example : (JToken.object [("name", .string "x"), ("inner", .object [("text", .string "12a")])]).isPlain := by decide

/-- A boolean before a text. -/
def enabledName : JObject where
  properties := [("enabled", .boolean true), ("name", .string "x")]
  distinct := ⟨by decide, trivial, trivial, trivial⟩

/-- The key of the boolean has no value, so it gets the next key for one. -/
theorem not_survivesYaml_enabledName :
    YamlJObjectConverter.writeYaml (fun _ => "") enabledName =
        .ok [.mappingStart, .scalar "enabled", .scalar "name", .scalar "x", .mappingEnd] ∧
      YamlJObjectConverter.readYaml [.mappingStart, .scalar "enabled", .scalar "name", .scalar "x", .mappingEnd] =
        .ok ([("enabled", .string "name"), ("x", .null)], []) ∧
      ¬ SurvivesYaml (fun _ => "") enabledName := by
  have writes : YamlJObjectConverter.writeYaml (fun _ => "") enabledName =
      .ok [.mappingStart, .scalar "enabled", .scalar "name", .scalar "x", .mappingEnd] := rfl
  have reads : YamlJObjectConverter.readYaml [.mappingStart, .scalar "enabled", .scalar "name", .scalar "x", .mappingEnd] =
      .ok ([("enabled", .string "name"), ("x", .null)], []) := by
    rw [YamlJObjectConverter.readYaml]
    rfl
  refine ⟨writes, reads, fun survives => ?_⟩
  have given := survives.read _ [] writes
  rw [List.append_nil, reads] at given
  cases given

end FaasNet.StateMachine
