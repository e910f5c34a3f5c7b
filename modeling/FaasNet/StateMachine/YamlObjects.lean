import Mathlib
import FaasNet.StateMachine.Definitions
import FaasNet.StateMachine.JObjectYaml

/-!
# Objects in YAML

The serializer visits the properties of an object and leaves out what `SkipEmptyGraphObjectVisitor` finds empty.
`YamlWorkflowDefinitionStateConverter.Build` goes the other way: it creates an object and sets the property of
each node. Both find the properties of a class by reflection, so that a class is here the list of its properties,
each with what is emitted of it and with what `Build` does with a node of it.
-/

namespace FaasNet.StateMachine

open FaasNet.Common

/-! ## Names -/

/-- `ToLowerInvariant`, for the names of properties and enumerations. -/
def toLowerInvariant (text : String) : String := String.ofList (text.toList.map Char.toLower)

/-- `CamelCaseNamingConvention`, for the names of properties. -/
def camelCase (name : String) : String :=
  match name.toList with
  | [] => ""
  | first :: others => String.ofList (first.toLower :: others)

/-- A name is found again from camel case if the case is left out of account. -/
theorem toLowerInvariant_camelCase (name : String) : toLowerInvariant (camelCase name) = toLowerInvariant name := by
  unfold toLowerInvariant camelCase
  cases h : name.toList with
  | nil => rfl
  | cons first others => simp

/-- The names differ also in lower case. -/
def DistinctNames (names : List String) : Prop := (names.map fun name => name.toList.map Char.toLower).Nodup

instance (names : List String) : Decidable (DistinctNames names) := inferInstanceAs (Decidable (List.Nodup _))

theorem DistinctNames.nodup {names : List String} (hd : DistinctNames names) : (names.map toLowerInvariant).Nodup := by
  have nodup := List.Nodup.map (fun _ _ h => String.ofList_injective h) hd
  rwa [List.map_map] at nodup

/-- The keys of the records differ as well. -/
theorem DistinctNames.nodup_map {names : List String} (hd : DistinctNames names) : (names.map camelCase).Nodup := by
  have nodup := hd.nodup
  rw [← List.map_congr_left fun name _ => toLowerInvariant_camelCase name] at nodup
  exact List.Nodup.of_map toLowerInvariant (by rwa [List.map_map])

/-- What is left of a text when blank ones are not emitted. -/
def emitted (text : Option String) : Option String := if isNullOrWhiteSpace text then none else text

@[simp] theorem emitted_none : emitted none = none := rfl

/-! ## Properties -/

/-- A property of a class. `getValue` is what is emitted of it, `setValue` what `Build` does with its node. -/
structure PropertyInfo (T : Type) where
  name : String
  getValue : T → Except SerializerException (Option YamlNode)
  setValue : TreeNode → T → Except SerializerException T

/-- A class, as far as it can be written and built. -/
structure Class (T : Type) where
  write : T → Except SerializerException (List (String × YamlNode))
  build : List (String × TreeNode) → Except SerializerException (Option T)

namespace PropertyInfo

variable {S T U : Type}

/-- The properties that are emitted of an object, under their names in camel case. -/
def writeAll (t : T) : List (PropertyInfo T) → Except SerializerException (List (String × YamlNode))
  | [] => pure []
  | property :: properties => do
    let value ← property.getValue t
    let records ← writeAll t properties
    match value with
    | none => pure records
    | some node => pure ((camelCase property.name, node) :: records)

/-- Sets the property that `find` names for the key of a node. -/
def setNode (find : String → Option (PropertyInfo T)) (unknown : T → Except SerializerException T) (result : T)
    (node : String × TreeNode) : Except SerializerException T :=
  match find node.1 with
  | none => unknown result
  | some property => property.setValue node.2 result

/-- `YamlWorkflowDefinitionStateConverter.Build`. A node that no property has the name of is passed over. -/
def buildAll (create : T) (properties : List (PropertyInfo T)) (nodes : List (String × TreeNode)) :
    Except SerializerException (Option T) :=
  if nodes.isEmpty then pure none
  else
    let find key := properties.find? fun p => toLowerInvariant p.name = toLowerInvariant key
    some <$> nodes.foldlM (setNode find pure) create

/-- How an object is read that no converter accepts. -/
def deserializeAll (create : T) (properties : List (PropertyInfo T)) (nodes : List (String × TreeNode)) :
    Except SerializerException (Option T) :=
  let find key := properties.find? fun p => camelCase p.name = key
  some <$> nodes.foldlM (setNode find fun _ => throw .propertyNotFound) create

end PropertyInfo

/-- A class whose objects `Build` makes. -/
def Class.built {T : Type} (create : T) (properties : List (PropertyInfo T)) : Class T where
  write t := PropertyInfo.writeAll t properties
  build := PropertyInfo.buildAll create properties

/-- A class whose objects are read without a converter. -/
def Class.plain {T : Type} (create : T) (properties : List (PropertyInfo T)) : Class T where
  write t := PropertyInfo.writeAll t properties
  build := PropertyInfo.deserializeAll create properties

/-- The part of the objects of a class that is of its base class. -/
structure BaseClass (T S : Type) where
  get : T → S
  set : S → T → T
  get_set : ∀ s t, get (set s t) = s
  set_set : ∀ s s' t, set s (set s' t) = set s t
  set_get : ∀ t, set (get t) t = t

/-! ## Kinds of properties -/

/-- The names of an enumeration, in the order of `Enum.GetNames`, and its values. -/
structure EnumType (E : Type) where
  values : List E
  name : E → String
  parses : ∀ e, values.find? (fun v => toLowerInvariant (name v) = toLowerInvariant (name e)) = some e

/-- The texts of `JObject`s: what is emitted of the object with a text, and `JObject.ToString`. -/
structure JObjectTexts where
  write : String → Except SerializerException (Option YamlNode)
  toString : List (String × JToken) → String

/-- `Int32.ToString`. -/
def printInt (n : Int32) : String :=
  String.ofList (if n.toInt < 0 then '-' :: Nat.toDigits 10 n.toInt.natAbs else Nat.toDigits 10 n.toInt.natAbs)

/-- A number of decimal digits. -/
def parseDigits (digits : List Char) : Option Nat :=
  if !digits.isEmpty && digits.all Char.isDigit then some (Nat.ofDigitChars 10 digits 0) else none

/-- `Int32Converter`, for the texts of numbers. -/
def parseInt (text : String) : Option Int32 := do
  let n : Int ← match text.toList with
    | '-' :: digits => (parseDigits digits).map fun n : Nat => -(n : Int)
    | digits => (parseDigits digits).map fun n : Nat => (n : Int)
  if -2147483648 ≤ n ∧ n ≤ 2147483647 then some (Int32.ofInt n) else none

namespace PropertyInfo

variable {S T U E : Type}

/-- Of type `string`. There is no constructor of a text without arguments, and it is not generic. -/
def string (name : String) (get : T → Option String) (set : Option String → T → T) : PropertyInfo T where
  name := name
  getValue t := pure ((emitted (get t)).map .scalar)
  setValue
    | .property value, t => pure (set value t)
    | .object children, t => if children.isEmpty then pure (set none t) else throw .missingMethod
    | .array _, _ => throw .invalidOperation

/-- Of type `bool`. -/
def bool (name : String) (get : T → Bool) (set : Bool → T → T) : PropertyInfo T where
  name := name
  getValue t := pure (some (.scalar (if get t then "true" else "false")))
  setValue
    | .property value, t =>
      match value.map boolTryParse with
      | none => throw .notSupported
      | some none => throw .format
      | some (some value) => pure (set value t)
    | .object _, t => pure (set false t)
    | .array _, _ => throw .invalidOperation

/-- Of type `int`. -/
def int (name : String) (get : T → Int32) (set : Int32 → T → T) : PropertyInfo T where
  name := name
  getValue t := pure (some (.scalar (printInt (get t))))
  setValue
    | .property value, t =>
      match value.map parseInt with
      | none => throw .notSupported
      | some none => throw .argument
      | some (some value) => pure (set value t)
    | .object _, t => pure (set 0 t)
    | .array _, _ => throw .invalidOperation

/-- Of the type of an enumeration. -/
def enum (type : EnumType E) (default : E) (name : String) (get : T → E) (set : E → T → T) : PropertyInfo T where
  name := name
  getValue t := pure (some (.scalar (toLowerInvariant (type.name (get t)))))
  setValue
    | .property value, t =>
      match type.values.find? fun v => some (toLowerInvariant (type.name v)) = value with
      | none => throw .invalidOperation
      | some value => pure (set value t)
    | .object _, t => pure (set default t)
    | .array _, _ => throw .invalidOperation

/-- Of type `int?`, which is neither primitive nor an enumeration nor a text: no value is ever set. -/
def nullableInt (name : String) (get : T → Option Int32) (set : Option Int32 → T → T) : PropertyInfo T where
  name := name
  getValue t := pure ((get t).map fun n => .scalar (printInt n))
  setValue
    | .property _, t => pure t
    | .object children, t =>
      if children.any fun child => toLowerInvariant child.1 ∈ ["hasvalue", "value"] then throw .argument
      else pure (set none t)
    | .array _, _ => throw .argument

/-- Of type `JObject`. -/
def jObject (json : JObjectTexts) (name : String) (get : T → Option String)
    (set : Option String → T → T) : PropertyInfo T where
  name := name
  getValue t := if isNullOrWhiteSpace (get t) then pure none else json.write ((get t).getD "")
  setValue node t := do
    match ← TreeNode.selected (camelCase name, node) with
    | none => pure t
    | some properties => pure (set (some (json.toString properties)) t)

/-- Of type `JObject`, and read by `YamlJObjectConverter`. `Extract` gives no nodes for what is no mapping. -/
def convertedJObject (json : JObjectTexts) (name : String) (get : T → Option String)
    (set : Option String → T → T) : PropertyInfo T :=
  { jObject json name get set with
    setValue := fun
      | .object children, t => do
        let properties ← YamlJObjectConverter.build [] children
        pure (set (some (json.toString properties)) t)
      | _, t => pure (set (some (json.toString [])) t) }

/-- Of the type of a class. -/
def object (type : Class U) (name : String) (get : T → Option U) (set : Option U → T → T) : PropertyInfo T where
  name := name
  getValue t :=
    match get t with
    | none => pure none
    | some value => do return some (.mapping (← type.write value))
  setValue
    | .property _, t => pure t
    | .object children, t => do return set (← type.build children) t
    | .array _, _ => throw .invalidOperation

/-- An item of an `ARRAY`, for a list of objects. What `Build` makes null of is not added. -/
def buildItem (type : Class U) : TreeNode → Except SerializerException (List U)
  | .property _ => throw .argument
  | .object children => do return (← type.build children).toList
  | .array children => if children.isEmpty then pure [] else throw .nullReference

/-- Of the type of a list of objects, with a getter that may throw. -/
def listOf (type : Class U) (name : String) (get : T → Except SerializerException (List U))
    (set : List U → T → T) : PropertyInfo T where
  name := name
  getValue t := do
    let values ← get t
    if values.isEmpty then pure none
    else return some (.sequence (← values.mapM fun value => return .mapping (← type.write value)))
  setValue
    | .property _, t => pure t
    | .object children, t => if children.isEmpty then pure (set [] t) else throw .missingMethod
    | .array children, t => do return set (← children.mapM (buildItem type)).flatten t

/-- Of the type of a list of objects. -/
def list (type : Class U) (name : String) (get : T → List U) (set : List U → T → T) : PropertyInfo T :=
  listOf type name (fun t => pure (get t)) set

/-- An item of an `ARRAY`, for a list of texts. -/
def buildText : TreeNode → Except SerializerException (List (Option String))
  | .property value => pure [value]
  | .object children => if children.isEmpty then pure [] else throw .missingMethod
  | .array children => if children.isEmpty then pure [] else throw .nullReference

/-- Of the type of a list of texts. A null in it is emitted as an empty scalar. -/
def strings (name : String) (get : T → List (Option String)) (set : List (Option String) → T → T) :
    PropertyInfo T where
  name := name
  getValue t :=
    if (get t).isEmpty then pure none else pure (some (.sequence ((get t).map fun text => .scalar (text.getD ""))))
  setValue
    | .property _, t => pure t
    | .object children, t => if children.isEmpty then pure (set [] t) else throw .missingMethod
    | .array children, t => do return set (← children.mapM buildText).flatten t

/-- With `YamlIgnore`. -/
def ignored (property : PropertyInfo T) : PropertyInfo T := { property with getValue := fun _ => pure none }

/-- A property of the base class. -/
def inherited (base : BaseClass T S) (property : PropertyInfo S) : PropertyInfo T where
  name := property.name
  getValue t := property.getValue (base.get t)
  setValue node t := do return base.set (← property.setValue node (base.get t)) t

end PropertyInfo

/-! ## What is read back -/

/-- Digits are read as the number they were written for. -/
theorem parseDigits_toDigits (n : Nat) : parseDigits (Nat.toDigits 10 n) = some n := by
  have hne : Nat.toDigits 10 n ≠ [] := by
    rw [Nat.toDigits_eq_if (by decide)]
    split <;> simp
  have hall : (Nat.toDigits 10 n).all Char.isDigit = true :=
    List.all_eq_true.2 fun c hc => Nat.isDigit_of_mem_toDigits (by decide) (by decide) hc
  simp [parseDigits, hne, hall, Nat.ofDigitChars_toDigits]

theorem parseInt_printInt (n : Int32) : parseInt (printInt n) = some n := by
  have lower : -2147483648 ≤ n.toInt := n.le_toInt
  have upper : n.toInt < 2147483648 := n.toInt_lt
  unfold parseInt printInt
  rw [String.toList_ofList]
  by_cases hn : n.toInt < 0
  · rw [if_pos hn]
    have value : -(n.toInt.natAbs : Int) = n.toInt := by omega
    simp only [parseDigits_toDigits, Option.map_some, Option.bind_eq_bind, Option.bind_some, value]
    rw [if_pos ⟨lower, by omega⟩, Int32.ofInt_toInt]
  · rw [if_neg hn]
    have value : (n.toInt.natAbs : Int) = n.toInt := by omega
    have unsigned : ∀ digits, Nat.toDigits 10 n.toInt.natAbs ≠ '-' :: digits := by
      intro digits h
      have digit := Nat.isDigit_of_mem_toDigits (b := 10) (by decide) (by decide)
        (h ▸ List.mem_cons_self : '-' ∈ Nat.toDigits 10 n.toInt.natAbs)
      exact absurd digit (by decide)
    split
    · rename_i digits h
      exact absurd h (unsigned digits)
    · simp only [parseDigits_toDigits, Option.map_some, Option.bind_eq_bind, Option.bind_some, value]
      rw [if_pos ⟨lower, by omega⟩, Int32.ofInt_toInt]

theorem boolTryParse_eq (b : Bool) : boolTryParse (if b then "true" else "false") = some b := by
  cases b <;> decide

namespace PropertyInfo

variable {S T U E : Type}

/-- `property.Restores t r present extractable r'`: the property is emitted of `t` exactly if `present`, as a node
that can be extracted exactly if `extractable`; and to set it takes the object from `r` to `r'`. -/
inductive Restores (property : PropertyInfo T) (t r : T) : Bool → Bool → T → Prop
  | absent : property.getValue t = .ok none → Restores property t r false true r
  | present {node : YamlNode} {r' : T} : property.getValue t = .ok (some node) →
    (node.isExtractable = true → property.setValue node.treeNode r = .ok r') →
      Restores property t r true node.isExtractable r'

end PropertyInfo

/-- The object `u` is written, as a mapping that can be extracted exactly if `extractable`; and what is built of
the mapping then is `u'`. -/
def Class.Restores {U : Type} (type : Class U) (u : U) (extractable : Bool) (u' : U) : Prop :=
  ∃ records, type.write u = .ok records ∧ (YamlNode.mapping records).isExtractable = extractable ∧
    (extractable = true → type.build (YamlNode.treeRecords records) = .ok (some u'))

namespace PropertyInfo

variable {t r : T} {name : String}

/-- A property with a scalar value is restored if its text is read back. -/
theorem Restores.scalar {property : PropertyInfo T} {text : String} {r' : T}
    (h : property.getValue t = .ok (some (.scalar text)))
    (hs : property.setValue (.property (some text)) r = .ok r') :
    property.Restores t r true true r' :=
  .present h fun _ => hs

/-- A string is restored, the empty one by being left out. -/
theorem string_restores {get : T → Option String} {set : Option String → T → T} (hr : set none r = r) :
    (string name get set).Restores t r (emitted (get t)).isSome true (set (emitted (get t)) r) := by
  cases h : emitted (get t) with
  | none =>
    rw [hr]
    exact .absent (by simp only [string, h]; rfl)
  | some text => exact .scalar (by simp only [string, h]; rfl) rfl

theorem bool_restores {get : T → Bool} {set : Bool → T → T} :
    (bool name get set).Restores t r true true (set (get t) r) :=
  .scalar rfl (by simp only [bool, Option.map_some, boolTryParse_eq]; rfl)

theorem int_restores {get : T → Int32} {set : Int32 → T → T} :
    (int name get set).Restores t r true true (set (get t) r) :=
  .scalar rfl (by simp only [int, Option.map_some, parseInt_printInt]; rfl)

theorem enum_restores {type : EnumType E} {default : E} {get : T → E} {set : E → T → T} :
    (enum type default name get set).Restores t r true true (set (get t) r) :=
  .scalar rfl (by simp only [enum, Option.some.injEq, type.parses]; rfl)

/-- A number that may be null is emitted, and not read. -/
theorem nullableInt_restores {get : T → Option Int32} {set : Option Int32 → T → T} :
    (nullableInt name get set).Restores t r (get t).isSome true r := by
  cases h : get t with
  | none => exact .absent (by simp only [nullableInt, h]; rfl)
  | some n => exact .scalar (by simp only [nullableInt, h]; rfl) rfl

/-- An object of JSON without a text is left out. -/
theorem jObject_restores {json : JObjectTexts} {get : T → Option String} {set : Option String → T → T}
    (h : isNullOrWhiteSpace (get t) = true) : (jObject json name get set).Restores t r false true r :=
  .absent (by simp only [jObject, h, if_true]; rfl)

/-- A converted object of JSON without a text is left out. -/
theorem convertedJObject_restores {json : JObjectTexts} {get : T → Option String} {set : Option String → T → T}
    (h : isNullOrWhiteSpace (get t) = true) : (convertedJObject json name get set).Restores t r false true r :=
  .absent (by simp only [convertedJObject, jObject, h, if_true]; rfl)

/-- What is ignored is left out. -/
theorem ignored_restores {property : PropertyInfo T} : property.ignored.Restores t r false true r := .absent rfl

theorem object_restores {type : Class U} {get : T → Option U} {set : Option U → T → T} {extractable : U → Bool}
    {restored : U → U} (h : ∀ u, get t = some u → type.Restores u (extractable u) (restored u))
    (hr : set none r = r) :
    (object type name get set).Restores t r (get t).isSome ((get t).all extractable)
      (set ((get t).map restored) r) := by
  cases hv : get t with
  | none =>
    simp only [Option.map_none, hr]
    exact .absent (by simp only [object, hv]; rfl)
  | some u =>
    obtain ⟨records, hw, he, hb⟩ := h u hv
    simp only [Option.all_some, ← he]
    refine .present (by simp only [object, hv, hw]; rfl) fun hx => ?_
    simp only [object, YamlNode.treeNode, hb (he ▸ hx)]
    rfl

/-- A sequence of scalars is built into its texts. -/
theorem buildTexts : ∀ texts : List (Option String),
    (YamlNode.treeItems (texts.map fun text => .scalar (text.getD ""))).mapM buildText =
      .ok (texts.map fun text => [some (text.getD "")])
  | [] => rfl
  | text :: texts => by
    simp only [List.map_cons, YamlNode.treeItems, YamlNode.treeNode, List.mapM_cons, buildTexts texts]
    rfl

/-- Scalars can be taken out of a sequence. -/
theorem itemsExtractable_texts : ∀ texts : List (Option String),
    YamlNode.itemsExtractable (texts.map fun text => .scalar (text.getD "")) = true
  | [] => rfl
  | _ :: texts => itemsExtractable_texts texts

theorem flatten_map_singleton {α β : Type} (f : α → β) (values : List α) :
    (values.map fun value => [f value]).flatten = values.map f := by
  rw [← List.flatMap_def, ← List.map_eq_flatMap]

theorem strings_restores {get : T → List (Option String)} {set : List (Option String) → T → T}
    (hr : set [] r = r) :
    (strings name get set).Restores t r (!(get t).isEmpty) true
      (set ((get t).map fun text => some (text.getD "")) r) := by
  cases hv : get t with
  | nil =>
    simp only [List.map_nil, hr]
    exact .absent (by simp only [strings, hv]; rfl)
  | cons text texts =>
    have extractable : (YamlNode.sequence ((text :: texts).map fun text => .scalar (text.getD ""))).isExtractable =
        true := itemsExtractable_texts (text :: texts)
    rw [← extractable]
    refine .present (by simp only [strings, hv]; rfl) fun _ => ?_
    simp only [strings, YamlNode.treeNode, buildTexts]
    exact congrArg (fun texts => Except.ok (set texts r)) (flatten_map_singleton _ _)

/-- A property whose value is already in the object by others. -/
theorem object_restores_same {type : Class U} {get : T → Option U} {set : Option U → T → T}
    {extractable : U → Bool} {restored : U → U}
    (h : ∀ u, get t = some u → type.Restores u (extractable u) (restored u))
    (hr : ∀ u, get t = some u → set (some (restored u)) r = r) :
    (object type name get set).Restores t r (get t).isSome ((get t).all extractable) r := by
  cases hv : get t with
  | none => exact .absent (by simp only [object, hv]; rfl)
  | some u =>
    obtain ⟨records, hw, he, hb⟩ := h u hv
    simp only [Option.all_some, ← he]
    refine .present (by simp only [object, hv, hw]; rfl) fun hx => ?_
    simp only [object, YamlNode.treeNode, hb (he ▸ hx)]
    exact congrArg Except.ok (hr u hv)

/-- The items of a sequence are built one by one. -/
theorem buildItems {type : Class U} {extractable : U → Bool} {restored : U → U} : ∀ {us : List U},
    (∀ u ∈ us, type.Restores u (extractable u) (restored u)) →
    ∃ nodes, us.mapM (fun u => return YamlNode.mapping (← type.write u)) = .ok nodes ∧
      nodes.isEmpty = us.isEmpty ∧ YamlNode.itemsExtractable nodes = us.all extractable ∧
      (us.all extractable = true →
        (YamlNode.treeItems nodes).mapM (buildItem type) = .ok (us.map fun u => [restored u]))
  | [], _ => ⟨[], rfl, rfl, rfl, fun _ => rfl⟩
  | u :: us, h => by
    obtain ⟨records, hw, he, hb⟩ := h u List.mem_cons_self
    obtain ⟨nodes, hws, hempty, hes, hbs⟩ := buildItems fun v hv => h v (List.mem_cons_of_mem _ hv)
    refine ⟨.mapping records :: nodes, ?_, rfl, ?_, ?_⟩
    · simp only [List.mapM_cons, hw, hws]
      rfl
    · simp only [YamlNode.itemsExtractable, he, hes, List.all_cons]
    · intro hx
      simp only [List.all_cons, Bool.and_eq_true] at hx
      simp only [YamlNode.treeItems, YamlNode.treeNode, List.mapM_cons, buildItem, hb hx.1, hbs hx.2]
      rfl

/-- A list that can be got is restored if its elements are. -/
theorem listOf_restores {type : Class U} {get : T → Except SerializerException (List U)} {set : List U → T → T}
    {extractable : U → Bool} {restored : U → U} {us : List U} (hget : get t = .ok us)
    (h : ∀ u ∈ us, type.Restores u (extractable u) (restored u)) (hr : set [] r = r) :
    (listOf type name get set).Restores t r (!us.isEmpty) (us.all extractable) (set (us.map restored) r) := by
  obtain ⟨nodes, hw, hempty, he, hb⟩ := buildItems h
  cases us with
  | nil =>
    simp only [List.map_nil, hr]
    exact .absent (by simp only [listOf, hget]; rfl)
  | cons u us =>
    have hnode : (YamlNode.sequence nodes).isExtractable = (u :: us).all extractable := by
      simp only [YamlNode.isExtractable, hempty, he]
      rfl
    have hvalue : (listOf type name get set).getValue t = .ok (some (.sequence nodes)) := by
      have visited : (listOf type name get set).getValue t =
          (do return some (.sequence (← (u :: us).mapM fun u => return .mapping (← type.write u)))) := by
        simp only [listOf, hget]
        rfl
      rw [visited, hw]
      rfl
    rw [← hnode]
    refine .present hvalue fun hx => ?_
    simp only [listOf, YamlNode.treeNode, hb (hnode ▸ hx)]
    exact congrArg (fun us => Except.ok (set us r)) (flatten_map_singleton _ _)

/-- A list that was written could be got. -/
theorem get_of_getValue {type : Class U} {get : T → Except SerializerException (List U)} {set : List U → T → T}
    {value : Option YamlNode} (h : (listOf type name get set).getValue t = .ok value) :
    ∃ us, get t = .ok us := by
  simp only [listOf] at h
  cases hget : get t with
  | error e =>
    rw [hget] at h
    cases h
  | ok us => exact ⟨us, rfl⟩

theorem list_restores {type : Class U} {get : T → List U} {set : List U → T → T} {extractable : U → Bool}
    {restored : U → U} (h : ∀ u ∈ get t, type.Restores u (extractable u) (restored u)) (hr : set [] r = r) :
    (list type name get set).Restores t r (!(get t).isEmpty) ((get t).all extractable)
      (set ((get t).map restored) r) :=
  listOf_restores rfl h hr

/-- `Restores`, for all properties one after the other. -/
inductive AllRestore (t : T) : List (PropertyInfo T) → T → Bool → Bool → T → Prop
  | nil {r : T} : AllRestore t [] r false true r
  | cons {property : PropertyInfo T} {properties : List (PropertyInfo T)} {r r' r'' : T} {b b' w w' : Bool} :
    property.Restores t r b w r' → AllRestore t properties r' b' w' r'' →
      AllRestore t (property :: properties) r (b || b') (w && w') r''

/-- A property of the base class is read into the part of the object that is of the base class. -/
theorem Restores.inherited {base : BaseClass T S} {property : PropertyInfo S} {s' : S} {b w : Bool}
    (h : property.Restores (base.get t) (base.get r) b w s') :
    (property.inherited base).Restores t r b w (base.set s' r) := by
  cases h with
  | absent h =>
    rw [base.set_get]
    exact .absent h
  | present h hs =>
    refine .present h fun hx => ?_
    simp only [PropertyInfo.inherited, hs hx]
    rfl

/-- Inherited properties are restored in the derived object. -/
theorem AllRestore.inherited (base : BaseClass T S) (t : T) {ps : List (PropertyInfo S)} {s s' : S} {b w : Bool}
    (h : AllRestore (base.get t) ps s b w s') :
    ∀ r, base.get r = s → AllRestore t (ps.map (PropertyInfo.inherited base)) r b w (base.set s' r) := by
  induction h with
  | nil =>
    intro r hr
    rw [← hr, base.set_get]
    exact .nil
  | cons h _ ih =>
    intro r hr
    subst hr
    have rest := ih (base.set _ r) (base.get_set _ r)
    rw [base.set_set] at rest
    exact .cons h.inherited rest

/-! ## Objects -/

/-- The nodes of a mapping are read from its records. -/
theorem foldlM_treeRecords (read : T → String × TreeNode → Except SerializerException T) :
    ∀ (records : List (String × YamlNode)) (r : T), (YamlNode.treeRecords records).foldlM read r =
      records.foldlM (fun r record => read r (record.1, record.2.treeNode)) r
  | [], _ => rfl
  | (key, node) :: records, r => by
    rw [YamlNode.treeRecords, List.foldlM_cons, List.foldlM_cons]
    exact bind_congr (foldlM_treeRecords read records)

/-- What is emitted of the properties, and what is made of it by whatever sets the property of each record. -/
theorem AllRestore.records {ps : List (PropertyInfo T)} {r' : T} {b w : Bool} (h : AllRestore t ps r b w r') :
    ∃ records, writeAll t ps = .ok records ∧ (!records.isEmpty) = b ∧ YamlNode.recordsExtractable records = w ∧
      (w = true → ∀ read : T → String × YamlNode → Except SerializerException T,
        (∀ p ∈ ps, ∀ r node, read r (camelCase p.name, node) = p.setValue node.treeNode r) →
        records.foldlM read r = .ok r') := by
  induction h with
  | nil => exact ⟨[], rfl, rfl, rfl, fun _ _ _ => rfl⟩
  | @cons p ps r r' r'' b b' w w' h _ ih =>
    obtain ⟨records, hw, hb, he, hf⟩ := ih
    cases h with
    | absent h =>
      refine ⟨records, by simp only [writeAll, h, hw]; rfl, by simpa using hb, by simpa using he, ?_⟩
      intro hx read hread
      exact hf (by simpa using hx) read fun q hq => hread q (List.mem_cons_of_mem _ hq)
    | @present node _ h hs =>
      refine ⟨(camelCase p.name, node) :: records, by simp only [writeAll, h, hw]; rfl, rfl, ?_, ?_⟩
      · simp only [YamlNode.recordsExtractable, he]
      · intro hx read hread
        rw [Bool.and_eq_true] at hx
        rw [List.foldlM_cons, hread p List.mem_cons_self, hs hx.1]
        exact hf hx.2 read fun q hq => hread q (List.mem_cons_of_mem _ hq)

/-- A property is the first with its name. -/
theorem find_of_nodup {α : Type} [DecidableEq α] {key : PropertyInfo T → α} : ∀ {ps : List (PropertyInfo T)},
    (ps.map key).Nodup → ∀ p ∈ ps, ps.find? (fun q => key q = key p) = some p
  | [], _, _, h => nomatch h
  | q :: ps, hn, p, h => by
    rw [List.map_cons, List.nodup_cons] at hn
    rcases List.mem_cons.1 h with rfl | hp
    · simp
    · have hne : key q ≠ key p := fun he => hn.1 (he ▸ List.mem_map_of_mem hp)
      rw [List.find?_cons_of_neg (by simpa using hne)]
      exact find_of_nodup hn.2 p hp

end PropertyInfo

section Classes

open PropertyInfo

variable {T : Type} {t create r' : T} {properties : List (PropertyInfo T)} {b w : Bool}

/-- A class that is built from its properties restores an object if each property is restored. -/
theorem Class.built_restores (h : AllRestore t properties create b w r')
    (hd : DistinctNames (properties.map (·.name))) : (Class.built create properties).Restores t (b && w) r' := by
  obtain ⟨records, hw, hb, he, hf⟩ := h.records
  refine ⟨records, hw, by rw [← hb, ← he]; rfl, fun hx => ?_⟩
  rw [Bool.and_eq_true] at hx
  have nonempty : (YamlNode.treeRecords records).isEmpty = false := by
    rw [hx.1] at hb
    cases records with
    | nil => cases hb
    | cons => rfl
  have nodup := hd.nodup
  rw [List.map_map] at nodup
  simp only [Class.built, buildAll, nonempty, Bool.false_eq_true, if_false]
  rw [foldlM_treeRecords, hf hx.2]
  · rfl
  · intro p hp r node
    have found := find_of_nodup nodup p hp
    simp only [Function.comp_apply] at found
    simp only [setNode, toLowerInvariant_camelCase, found]

theorem DistinctNames.nodup_camelCase (hd : DistinctNames (properties.map (·.name))) :
    (properties.map fun p => camelCase p.name).Nodup := by
  have nodup := hd.nodup_map
  rwa [List.map_map] at nodup

/-- A class that is read property by property restores an object if each property is restored. -/
theorem Class.plain_restores (h : AllRestore t properties create b w r')
    (hd : DistinctNames (properties.map (·.name))) : (Class.plain create properties).Restores t (b && w) r' := by
  obtain ⟨records, hw, hb, he, hf⟩ := h.records
  refine ⟨records, hw, by rw [← hb, ← he]; rfl, fun hx => ?_⟩
  rw [Bool.and_eq_true] at hx
  simp only [Class.plain, deserializeAll]
  rw [foldlM_treeRecords, hf hx.2]
  · rfl
  · intro p hp r node
    have found := find_of_nodup hd.nodup_camelCase p hp
    simp only [setNode, found]

theorem writeAll_cons {property : PropertyInfo T} {records : List (String × YamlNode)}
    (h : writeAll t (property :: properties) = .ok records) :
    ∃ value others, property.getValue t = .ok value ∧ writeAll t properties = .ok others ∧
      records = (value.map fun node => (camelCase property.name, node)).toList ++ others := by
  simp only [writeAll] at h
  cases hv : property.getValue t with
  | error e => rw [hv] at h; exact nomatch h
  | ok value =>
    cases hw : writeAll t properties with
    | error e => rw [hv, hw] at h; exact nomatch h
    | ok others =>
      rw [hv, hw] at h
      refine ⟨value, others, rfl, rfl, ?_⟩
      cases value <;> exact (Except.ok.inj h).symm

/-- If all properties are written, each has a value. -/
theorem getValue_of_writeAll : ∀ {properties : List (PropertyInfo T)} {records : List (String × YamlNode)},
    writeAll t properties = .ok records → ∀ p ∈ properties, ∃ value, p.getValue t = .ok value
  | [], _, _, _, hp => nomatch hp
  | property :: properties, _, h, p, hp => by
    obtain ⟨value, others, hvalue, hw, -⟩ := writeAll_cons h
    rcases List.mem_cons.1 hp with rfl | hp
    · exact ⟨value, hvalue⟩
    · exact getValue_of_writeAll hw p hp

/-- The record of a property is found by its key. -/
theorem find_of_writeAll : ∀ {properties : List (PropertyInfo T)} {records : List (String × YamlNode)},
    (properties.map fun p => camelCase p.name).Nodup → writeAll t properties = .ok records →
    ∀ p ∈ properties, ∀ node, p.getValue t = .ok (some node) →
    records.find? (fun record => record.1 = camelCase p.name) = some (camelCase p.name, node)
  | [], _, _, _, _, hp, _, _ => nomatch hp
  | property :: properties, records, hn, h, p, hp, node, hv => by
    rw [List.map_cons, List.nodup_cons] at hn
    obtain ⟨value, others, hvalue, hw, rfl⟩ := writeAll_cons h
    rcases List.mem_cons.1 hp with rfl | hp
    · rw [hv] at hvalue
      cases hvalue
      simp
    · have other : camelCase property.name ≠ camelCase p.name := by
        intro same
        apply hn.1
        rw [same]
        exact List.mem_map_of_mem hp
      have rest := find_of_writeAll hn.2 hw p hp node hv
      cases value with
      | none => exact rest
      | some _ => simpa [other] using rest

end Classes

end FaasNet.StateMachine
