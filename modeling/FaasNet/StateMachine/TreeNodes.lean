import FaasNet.Common.Text

/-!
# YAML documents and their events

A YAML document is a tree of scalars, mappings and sequences, and a parser hands it out as a stream of events.
`ParserExtensions.Extract` makes nodes of the events of one mapping. Its loops test their end only after the first pass,
so an empty mapping or sequence is never taken for one.
-/

namespace FaasNet.StateMachine

/-- The exceptions of the serializer. `insufficientExecutionStack` is not one of the source: a recursion of the
model has run out of the depth it was given. -/
inductive SerializerException where
  | nullReference
  | invalidOperation
  | notSupported
  | invalidCast
  | argument
  | format
  | missingMethod
  | keyNotFound
  | propertyNotFound
  | unexpectedNode
  | insufficientExecutionStack
  deriving DecidableEq, Repr

/-- What the parser meets. -/
inductive ParsingEvent where
  | scalar (value : String)
  | sequenceStart
  | sequenceEnd
  | mappingStart
  | mappingEnd
  | anchorAlias
  deriving DecidableEq, Repr

/-- A node of a document. The keys of a mapping are scalars. -/
inductive YamlNode where
  | scalar (value : String)
  | mapping (records : List (String × YamlNode))
  | sequence (items : List YamlNode)

/-- The three types of a `TreeNode`. A child of an `OBJECT` has a key, a child of an `ARRAY` has none. -/
inductive TreeNode where
  | property (value : Option String)
  | object (children : List (String × TreeNode))
  | array (children : List TreeNode)

namespace YamlNode

mutual

/-- The events that a node is emitted as. -/
def events : YamlNode → List ParsingEvent
  | scalar value => [.scalar value]
  | mapping records => .mappingStart :: (recordEvents records ++ [.mappingEnd])
  | sequence items => .sequenceStart :: (itemEvents items ++ [.sequenceEnd])

/-- The events of records. -/
def recordEvents : List (String × YamlNode) → List ParsingEvent
  | [] => []
  | (key, node) :: records => .scalar key :: (node.events ++ recordEvents records)

/-- The events of items. -/
def itemEvents : List YamlNode → List ParsingEvent
  | [] => []
  | node :: items => node.events ++ itemEvents items

end

mutual

/-- The node that is made of it. -/
def treeNode : YamlNode → TreeNode
  | scalar value => .property (some value)
  | mapping records => .object (treeRecords records)
  | sequence items => .array (treeItems items)

/-- The tree of records. -/
def treeRecords : List (String × YamlNode) → List (String × TreeNode)
  | [] => []
  | (key, node) :: records => (key, node.treeNode) :: treeRecords records

/-- The trees of items. -/
def treeItems : List YamlNode → List TreeNode
  | [] => []
  | node :: items => node.treeNode :: treeItems items

end

mutual

/-- What `Extract` can read as the value of a property: no mapping or sequence in it is empty, and no sequence
is an item of a sequence. -/
def isExtractable : YamlNode → Bool
  | scalar _ => true
  | mapping records => !records.isEmpty && recordsExtractable records
  | sequence items => !items.isEmpty && itemsExtractable items

/-- All records can be extracted. -/
def recordsExtractable : List (String × YamlNode) → Bool
  | [] => true
  | (_, node) :: records => node.isExtractable && recordsExtractable records

/-- All items can be extracted. -/
def itemsExtractable : List YamlNode → Bool
  | [] => true
  | sequence _ :: _ => false
  | node :: items => node.isExtractable && itemsExtractable items

end

end YamlNode

namespace ParserExtensions

open YamlNode

/-- The test at the end of the loop over the records of a mapping. -/
def nextRecords (extractRecords : List ParsingEvent →
      Except SerializerException (List (String × TreeNode) × List ParsingEvent))
    (record : String × TreeNode) : List ParsingEvent →
    Except SerializerException (List (String × TreeNode) × List ParsingEvent)
  | [] => throw .nullReference
  | .mappingEnd :: parser => pure ([record], parser)
  | parser => do
    let (records, parser) ← extractRecords parser
    pure (record :: records, parser)

/-- The test at the end of the loop over the items of a sequence. -/
def nextItems (extractItems : List ParsingEvent → Except SerializerException (List TreeNode × List ParsingEvent))
    (obj : TreeNode) : List ParsingEvent → Except SerializerException (List TreeNode × List ParsingEvent)
  | [] => throw .nullReference
  | .sequenceEnd :: parser => pure ([obj], parser)
  | parser => do
    let (items, parser) ← extractItems parser
    pure (obj :: items, parser)

mutual

/-- The loop of `Extract` over the records of a mapping, up to its end. -/
def extractRecords : Nat → List ParsingEvent →
    Except SerializerException (List (String × TreeNode) × List ParsingEvent)
  | 0, _ => throw .insufficientExecutionStack
  | fuel + 1, .scalar propertyName :: .scalar value :: parser =>
    nextRecords (extractRecords fuel) (propertyName, .property (some value)) parser
  | fuel + 1, .scalar propertyName :: .sequenceStart :: parser => do
    let (children, parser) ← extractItems fuel parser
    nextRecords (extractRecords fuel) (propertyName, .array children) parser
  | fuel + 1, .scalar propertyName :: .mappingStart :: parser => do
    let (children, parser) ← extractRecords fuel parser
    nextRecords (extractRecords fuel) (propertyName, .object children) parser
  -- Any other value is not moved over. The end of the mapping ends the loop, and the next pass finds no key in the others.
  | _ + 1, .scalar propertyName :: .mappingEnd :: parser => pure ([(propertyName, .property none)], parser)
  | _, _ => throw .nullReference

/-- The loop of `Extract` over the items of a sequence, up to its end. -/
def extractItems : Nat → List ParsingEvent → Except SerializerException (List TreeNode × List ParsingEvent)
  | 0, _ => throw .insufficientExecutionStack
  | fuel + 1, .mappingStart :: parser => do
    let (children, parser) ← extractRecords fuel parser
    nextItems (extractItems fuel) (.object children) parser
  | fuel + 1, .scalar value :: parser => nextItems (extractItems fuel) (.property (some value)) parser
  | _, _ => throw .nullReference

end

/-- `Extract` of the mapping at the parser. A loop takes an event at least, so the events bound the passes. -/
def extract (parser : List ParsingEvent) :
    Except SerializerException (List (String × TreeNode) × List ParsingEvent) :=
  match parser with
  | [] => throw .nullReference
  | .mappingStart :: rest => extractRecords (rest.length + 1) rest
  | parser => pure ([], parser)

/-- After a pass, the loop goes on with the records that are left, if there are any. -/
theorem extractRecords_next {records : List (String × YamlNode)} {rest : List ParsingEvent} {fuel : Nat}
    (record : String × TreeNode)
    (h : extractRecords fuel (recordEvents records ++ .mappingEnd :: rest) =
      bif !records.isEmpty && recordsExtractable records then .ok (treeRecords records, rest) else .error .nullReference) :
    nextRecords (extractRecords fuel) record (recordEvents records ++ .mappingEnd :: rest) =
      bif recordsExtractable records then .ok (record :: treeRecords records, rest) else .error .nullReference := by
  cases records with
  | nil => rfl
  | cons next records =>
    simp only [recordEvents, List.cons_append, nextRecords] at h ⊢
    rw [h]
    cases recordsExtractable (next :: records) <;> rfl

theorem extractItems_next {items : List YamlNode} {rest : List ParsingEvent} {fuel : Nat} (obj : TreeNode)
    (h : extractItems fuel (itemEvents items ++ .sequenceEnd :: rest) =
      bif !items.isEmpty && itemsExtractable items then .ok (treeItems items, rest) else .error .nullReference) :
    nextItems (extractItems fuel) obj (itemEvents items ++ .sequenceEnd :: rest) =
      bif itemsExtractable items then .ok (obj :: treeItems items, rest) else .error .nullReference := by
  cases items with
  | nil => rfl
  | cons next items =>
    have goesOn : ∃ event events, itemEvents (next :: items) ++ .sequenceEnd :: rest = event :: events ∧
        event ≠ .sequenceEnd := by
      cases next <;> simp [itemEvents, events]
    obtain ⟨event, events, he, hne⟩ := goesOn
    rw [he] at h ⊢
    have step : nextItems (extractItems fuel) obj (event :: events) =
        (do let (items, parser) ← extractItems fuel (event :: events); pure (obj :: items, parser)) := by
      cases event <;> first | rfl | exact absurd rfl hne
    rw [step, h]
    cases itemsExtractable (next :: items) <;> rfl

mutual

/-- The records of a mapping are read back, if none of the mappings and sequences is empty or out of place. -/
theorem extractRecords_recordEvents : ∀ (records : List (String × YamlNode)) (rest : List ParsingEvent) (fuel : Nat),
    (recordEvents records).length < fuel →
    extractRecords fuel (recordEvents records ++ .mappingEnd :: rest) =
      bif !records.isEmpty && recordsExtractable records then .ok (treeRecords records, rest) else .error .nullReference
  | [], rest, fuel + 1, _ => rfl
  | (key, .scalar value) :: records, rest, fuel + 1, h => by
    have tail := extractRecords_recordEvents records rest fuel (by simp [recordEvents, events] at h; omega)
    exact extractRecords_next (key, .property (some value)) tail
  | (key, .mapping children) :: records, rest, fuel + 1, h => by
    have head := extractRecords_recordEvents children (recordEvents records ++ .mappingEnd :: rest) fuel
      (by simp [recordEvents, events] at h; omega)
    have tail := extractRecords_recordEvents records rest fuel (by simp [recordEvents, events] at h; omega)
    simp only [recordEvents, events, recordsExtractable, isExtractable, List.cons_append, List.append_assoc,
      List.nil_append, extractRecords, head]
    cases !children.isEmpty && recordsExtractable children with
    | false => rfl
    | true => exact extractRecords_next (key, .object (treeRecords children)) tail
  | (key, .sequence children) :: records, rest, fuel + 1, h => by
    have head := extractItems_itemEvents children (recordEvents records ++ .mappingEnd :: rest) fuel
      (by simp [recordEvents, events] at h; omega)
    have tail := extractRecords_recordEvents records rest fuel (by simp [recordEvents, events] at h; omega)
    simp only [recordEvents, events, recordsExtractable, isExtractable, List.cons_append, List.append_assoc,
      List.nil_append, extractRecords, head]
    cases !children.isEmpty && itemsExtractable children with
    | false => rfl
    | true => exact extractRecords_next (key, .array (treeItems children)) tail

theorem extractItems_itemEvents : ∀ (items : List YamlNode) (rest : List ParsingEvent) (fuel : Nat),
    (itemEvents items).length < fuel →
    extractItems fuel (itemEvents items ++ .sequenceEnd :: rest) =
      bif !items.isEmpty && itemsExtractable items then .ok (treeItems items, rest) else .error .nullReference
  | [], rest, fuel + 1, _ => rfl
  | .scalar value :: items, rest, fuel + 1, h => by
    have tail := extractItems_itemEvents items rest fuel (by simp [itemEvents, events] at h; omega)
    exact extractItems_next (.property (some value)) tail
  | .mapping children :: items, rest, fuel + 1, h => by
    have head := extractRecords_recordEvents children (itemEvents items ++ .sequenceEnd :: rest) fuel
      (by simp [itemEvents, events] at h; omega)
    have tail := extractItems_itemEvents items rest fuel (by simp [itemEvents, events] at h; omega)
    simp only [itemEvents, events, itemsExtractable, isExtractable, List.cons_append, List.append_assoc,
      List.nil_append, extractItems, head]
    cases !children.isEmpty && recordsExtractable children with
    | false => rfl
    | true => exact extractItems_next (.object (treeRecords children)) tail
  | .sequence children :: items, rest, fuel + 1, _ => rfl

end

/-- `Extract` reads the mapping that was emitted, and moves over its end. -/
theorem extract_events (records : List (String × YamlNode)) (rest : List ParsingEvent) :
    extract ((YamlNode.mapping records).events ++ rest) =
      bif (YamlNode.mapping records).isExtractable then .ok (treeRecords records, rest) else .error .nullReference := by
  simp only [events, List.cons_append, List.append_assoc, List.nil_append, extract, isExtractable]
  exact extractRecords_recordEvents records rest _ (by simp only [List.length_append]; omega)

/-- One mapping is consumed, and gives a node for each of its keys. -/
def ReadsMapping (records : List (String × YamlNode)) (rest : List ParsingEvent) : Prop :=
  extract ((YamlNode.mapping records).events ++ rest) = .ok (treeRecords records, rest)

/-- A mapping is read exactly if no mapping or sequence in it is empty and no sequence is an item of another. -/
theorem readsMapping_iff (records : List (String × YamlNode)) (rest : List ParsingEvent) :
    ReadsMapping records rest ↔ (YamlNode.mapping records).isExtractable := by
  rw [ReadsMapping, extract_events]
  cases (YamlNode.mapping records).isExtractable with
  | true => exact iff_of_true rfl rfl
  | false =>
    apply iff_of_false
    · intro same
      cases same
    · exact Bool.false_ne_true

/-- The empty sequence of a state without actions. -/
theorem not_readsMapping_emptySequence : ¬ ReadsMapping [("name", .scalar "wait"), ("actions", .sequence [])] [] := by
  intro reads
  have throws : extract ((YamlNode.mapping [("name", .scalar "wait"), ("actions", .sequence [])]).events ++ []) =
      .error .nullReference := rfl
  cases throws.symm.trans reads

end ParserExtensions

end FaasNet.StateMachine
