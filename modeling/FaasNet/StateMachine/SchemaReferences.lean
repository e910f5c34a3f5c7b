import FaasNet.Lib.Backpatching

/-!
# References of an AsyncAPI document

The reading of a document by `ReferenceConverter` and `JsonSchemaConverter`, with the objects that `FaasNetReferenceResolver`
has been told of and those that wait for one. Json.NET takes the converters from object to object in the order of the text;
the objects are named by their places in it.
-/

namespace FaasNet.StateMachine

open FaasNet.Lib

/-- The names that lead to a value from the root of the document. -/
abbrev Place := List String

/-- The types that a converter reads. -/
inductive ReferenceType where
  | jsonSchema
  | message
  | channelBindings
  | operationBindings
deriving DecidableEq

/-- An object that can be referred to. -/
structure ReferenceObject where
  place : Place
  type : ReferenceType
deriving DecidableEq

/-- The property `Reference` of an object, and what a converter has added to its `Items`. -/
structure Linked where
  reference : Option Place := none
  items : List Place := []
deriving DecidableEq

/-- An object whose reference waits. -/
structure UnprocessedObject where
  obj : ReferenceObject
  isArray : Bool

/-- `_dic` and `_unprocessedObjects`, with the links of all objects. -/
abbrev FaasNetReferenceResolver := Linking String ReferenceObject UnprocessedObject Place Linked

/-- `reader.Path` at a value, by the names that lead to it in the reader, and the text of the token that `SelectToken` finds
in an object, unless the path is refused. -/
structure JsonPaths (J : Type*) where
  path : List String → String
  selectToken : J → String → Option (Option String)

/-- A property as NJsonSchema has read it, with the `$ref` and the `items.$ref` of its text. -/
structure JsonSchemaProperty where
  key : String
  isArray : Bool
  ref : Option String := none
  itemsRef : Option String := none

/-- A schema. -/
structure FaasNetJsonSchema (J : Type*) where
  ref : Option String := none
  json : J
  properties : List JsonSchemaProperty := []

/-- A message, with its `headers` and its `payload` as they come. -/
structure AsyncMessage (J : Type*) where
  ref : Option String := none
  members : List (String × FaasNetJsonSchema J) := []

/-- A part of a document: a schema, a message, or bindings. -/
inductive DocumentPart (J : Type*) where
  | schema (schema : FaasNetJsonSchema J)
  | message (message : AsyncMessage J)
  | channelBindings (ref : Option String)
  | operationBindings (ref : Option String)

namespace FaasNetReferenceResolver

/-- `PropertyInfo.SetValue` of `Reference`. -/
def setReference (obj value : ReferenceObject) : Option (Linked → Linked) :=
  if obj.type = value.type then some fun linked => { linked with reference := some value.place } else none

/-- `Items.Add`. -/
def addItem (value : ReferenceObject) : Option (Linked → Linked) :=
  if value.type = .jsonSchema then some fun linked => { linked with items := linked.items ++ [value.place] } else none

/-- The links of one place change. -/
def update (place : Place) (link : Linked → Linked) (links : Place → Linked) : Place → Linked :=
  Function.update links place (link (links place))

/-- The objects that wait for a reference are linked. -/
def resolveUnprocessedObject (reference : String) (value : ReferenceObject) (resolver : FaasNetReferenceResolver) :
    Option (Place → Linked) :=
  resolver.pending.foldlM (fun links kvp =>
    if kvp.2 = reference then
      (if kvp.1.isArray then addItem value else setReference kvp.1.obj value).map fun link =>
        update kvp.1.obj.place link links
    else some links) resolver.links

/-- What can be referred to is added once, and resolves what waits for it. -/
def addReference (reference : String) (value : ReferenceObject) (resolver : FaasNetReferenceResolver) :
    Option FaasNetReferenceResolver :=
  if (resolver.defs.lookup reference).isSome then none
  else (resolveUnprocessedObject reference value resolver).map fun links =>
    { resolver with defs := resolver.defs ++ [(reference, value)], links := links }

/-- What a reference refers to, if it is known. -/
def resolveReference (reference : String) (resolver : FaasNetReferenceResolver) : Option ReferenceObject :=
  resolver.defs.lookup reference

/-- An object waits for its reference. -/
def addUnprocessedObject (obj : ReferenceObject) (reference : String) (isArray : Bool)
    (resolver : FaasNetReferenceResolver) : FaasNetReferenceResolver :=
  { resolver with pending := resolver.pending ++ [(⟨obj, isArray⟩, reference)] }

end FaasNetReferenceResolver

open FaasNetReferenceResolver

section
variable {J : Type*} (paths : JsonPaths J)

/-- A path as a reference. -/
def formatPath (path : String) : String :=
  "#/" ++ String.ofList (path.toList.map fun c => if c = '.' then '/' else c)

/-- An object is linked if its reference is known, else it waits. -/
def tryConvertReference (obj : ReferenceObject) (reference : String) (resolver : FaasNetReferenceResolver) :
    Option FaasNetReferenceResolver :=
  match resolveReference reference resolver with
  | some resolvedReference => (setReference obj resolvedReference).map fun link =>
    { resolver with links := update obj.place link resolver.links }
  | none => some (addUnprocessedObject obj reference false resolver)

/-- `populate` reads the members, whose reader starts at this object. -/
def parseJson (path : List String) (obj : ReferenceObject) (ref : Option String)
    (populate : FaasNetReferenceResolver → Option FaasNetReferenceResolver) (resolver : FaasNetReferenceResolver) :
    Option FaasNetReferenceResolver :=
  match ref with
  | none => (populate resolver).bind (addReference (formatPath (paths.path path)) obj)
  | some reference => (tryConvertReference obj reference resolver).bind populate

/-- A property is linked if its reference is known, else it waits. -/
def updateReferenceJsonSchemaProperty (place : Place) (json : J) (schemaProperty : JsonSchemaProperty)
    (resolver : FaasNetReferenceResolver) : Option FaasNetReferenceResolver := do
  let key := schemaProperty.key
  let schemaPropertyReference ← paths.selectToken json s!"properties.{key}.$ref"
  let schemaPropertyItemsReference ← paths.selectToken json s!"properties.{key}.items.$ref"
  match schemaPropertyReference.or schemaPropertyItemsReference with
  | none => some resolver
  | some reference =>
    let obj : ReferenceObject := ⟨place ++ ["properties", key], .jsonSchema⟩
    match (resolveReference reference resolver).filter (·.type = .jsonSchema) with
    | some resolvedReference =>
      let link := if schemaProperty.isArray then addItem resolvedReference else setReference obj resolvedReference
      link.map fun link => { resolver with links := update obj.place link resolver.links }
    | none => some (addUnprocessedObject obj reference schemaPropertyItemsReference.isSome resolver)

/-- The properties of a schema are linked one by one. -/
def updateReferenceJsonSchemaProperties (place : Place) (schema : FaasNetJsonSchema J)
    (resolver : FaasNetReferenceResolver) : Option FaasNetReferenceResolver :=
  schema.properties.foldlM
    (fun resolver property => updateReferenceJsonSchemaProperty paths place schema.json property resolver) resolver

/-- `JsonSchemaConverter.ReadJson`. -/
def readSchema (path : List String) (place : Place) (schema : FaasNetJsonSchema J)
    (resolver : FaasNetReferenceResolver) : Option FaasNetReferenceResolver :=
  (parseJson paths path ⟨place, .jsonSchema⟩ schema.ref some resolver).bind
    (updateReferenceJsonSchemaProperties paths place schema)

/-- `ReferenceConverter.ReadJson` of a message. The members are read from the object that has been loaded, so their paths
start anew. -/
def readMessage (place : Place) (message : AsyncMessage J) (resolver : FaasNetReferenceResolver) :
    Option FaasNetReferenceResolver :=
  parseJson paths place ⟨place, .message⟩ message.ref
    (message.members.foldlM fun resolver member =>
      readSchema paths [member.1] (place ++ [member.1]) member.2 resolver) resolver

/-- A part of the document is read. -/
def readPart (part : Place × DocumentPart J) (resolver : FaasNetReferenceResolver) : Option FaasNetReferenceResolver :=
  match part with
  | (place, .schema schema) => readSchema paths place place schema resolver
  | (place, .message message) => readMessage paths place message resolver
  | (place, .channelBindings ref) => parseJson paths place ⟨place, .channelBindings⟩ ref some resolver
  | (place, .operationBindings ref) => parseJson paths place ⟨place, .operationBindings⟩ ref some resolver

/-- Nothing is known yet. -/
def noReferences : FaasNetReferenceResolver := ⟨[], [], fun _ => {}⟩

/-- The reading of a document. -/
def readParts (parts : List (Place × DocumentPart J)) : Option FaasNetReferenceResolver :=
  parts.foldlM (fun resolver part => readPart paths part resolver) noReferences

end

/-! ## The reading as one pass over the objects -/

/-- What a converter comes to: an object it registers under its path, one with a `$ref`, a property of a schema. -/
inductive DocumentObject (J : Type*) where
  | target (path : List String) (obj : ReferenceObject)
  | reference (obj : ReferenceObject) (ref : String)
  | property (place : Place) (json : J) (property : JsonSchemaProperty)

/-- An object that takes the text of a reference: a whole object, or a property, with its `IsArray` and whether an `items.$ref`
has been found. -/
inductive TakenBy where
  | object
  | property (isArray ofItems : Bool)

/-- A reference, the object that has it, and where its target is put. -/
structure TakenReference where
  obj : ReferenceObject
  reference : String
  takenBy : TakenBy

namespace DocumentObject

section
variable {J : Type*}

/-- The object with its place. -/
def obj : DocumentObject J → ReferenceObject
  | .target _ obj => obj
  | .reference obj _ => obj
  | .property place _ p => ⟨place ++ ["properties", p.key], .jsonSchema⟩

/-- The reference that the text of the object has. -/
def ref : DocumentObject J → Option String
  | .target _ _ => none
  | .reference _ ref => some ref
  | .property _ _ p => p.ref.or p.itemsRef

variable (paths : JsonPaths J)

/-- What `SelectToken` finds for a property. -/
def found (json : J) (key : String) : Option (Option String × Option String) := do
  let direct ← paths.selectToken json s!"properties.{key}.$ref"
  let items ← paths.selectToken json s!"properties.{key}.items.$ref"
  return (direct, items)

/-- The reference that is taken for one of the object. -/
def taken : DocumentObject J → Option TakenReference
  | .target _ _ => none
  | .reference obj ref => some ⟨obj, ref, .object⟩
  | .property place json p => (found paths json p.key).bind fun refs =>
    (refs.1.or refs.2).map fun reference =>
      ⟨⟨place ++ ["properties", p.key], .jsonSchema⟩, reference, .property p.isArray refs.2.isSome⟩

/-- Whether the paths of its references are refused. -/
def Refused : DocumentObject J → Prop
  | .property _ json p => found paths json p.key = none
  | _ => False

instance : DecidablePred (Refused paths) := fun
  | .target _ _ => inferInstanceAs (Decidable False)
  | .reference _ _ => inferInstanceAs (Decidable False)
  | .property _ json p => inferInstanceAs (Decidable (found paths json p.key = none))

/-- What the resolver meets of an object. -/
def met (o : DocumentObject J) : Option (Met String ReferenceObject TakenReference) :=
  match o with
  | .target path obj => some (.define (formatPath (paths.path path)) obj)
  | .reference obj ref => some (.use ⟨obj, ref, .object⟩)
  | o@(.property _ _ _) => if o.Refused paths then some .failure else (o.taken paths).map .use

end

end DocumentObject

/-- How references are linked: at once, a property goes by its `IsArray`; later, by where the reference stood. -/
def referenceLinker : Linker String ReferenceObject TakenReference UnprocessedObject Place Linked where
  key := (·.reference)
  slot := (·.obj.place)
  keep use := ⟨use.obj, match use.takenBy with | .object => false | .property _ ofItems => ofItems⟩
  keptSlot := (·.obj.place)
  keptSlot_keep _ := rfl
  now use value :=
    match use.takenBy with
    | .object => (setReference use.obj value).map some
    | .property isArray _ =>
      if value.type = .jsonSchema then
        (if isArray then addItem value else setReference use.obj value).map some
      else some none
  later unprocessed value := if unprocessed.isArray then addItem value else setReference unprocessed.obj value

section
variable {J : Type*}

/-- A schema and its properties. -/
def schemaObjects (path : List String) (place : Place) (schema : FaasNetJsonSchema J) : List (DocumentObject J) :=
  schema.ref.elim (.target path ⟨place, .jsonSchema⟩) (.reference ⟨place, .jsonSchema⟩) ::
    schema.properties.map (.property place schema.json)

/-- A message and its parts. -/
def messageObjects (place : Place) (message : AsyncMessage J) : List (DocumentObject J) :=
  let members := message.members.flatMap fun member => schemaObjects [member.1] (place ++ [member.1]) member.2
  message.ref.elim (members ++ [.target place ⟨place, .message⟩]) (.reference ⟨place, .message⟩ · :: members)

/-- The objects of a part in the order in which the converters come to them. -/
def partObjects : Place × DocumentPart J → List (DocumentObject J)
  | (place, .schema schema) => schemaObjects place place schema
  | (place, .message message) => messageObjects place message
  | (place, .channelBindings ref) =>
    [ref.elim (.target place ⟨place, .channelBindings⟩) (.reference ⟨place, .channelBindings⟩)]
  | (place, .operationBindings ref) =>
    [ref.elim (.target place ⟨place, .operationBindings⟩) (.reference ⟨place, .operationBindings⟩)]

/-- A document, whose objects have places of their own. -/
structure AsyncApiDocument (J : Type*) where
  parts : List (Place × DocumentPart J)
  placesApart : ((parts.flatMap partObjects).map (·.obj.place)).Nodup

/-- The objects of a document, in the order in which they are read. -/
def AsyncApiDocument.objects (document : AsyncApiDocument J) : List (DocumentObject J) :=
  document.parts.flatMap partObjects

/-- A document is read part by part. -/
def AsyncApiDocument.read (document : AsyncApiDocument J) (paths : JsonPaths J) : Option FaasNetReferenceResolver :=
  readParts paths document.parts

variable {paths : JsonPaths J} {resolver : FaasNetReferenceResolver}

theorem addReference_eq (reference : String) (value : ReferenceObject) :
    addReference reference value = referenceLinker.define reference value := rfl

theorem tryConvertReference_eq (obj : ReferenceObject) (reference : String) :
    tryConvertReference obj reference resolver = referenceLinker.link ⟨obj, reference, .object⟩ resolver := by
  cases known : resolver.defs.lookup reference with
  | none => simp only [tryConvertReference, resolveReference, Linker.link, referenceLinker, known]; rfl
  | some value =>
    cases set : setReference obj value with
    | none => simp [tryConvertReference, resolveReference, Linker.link, referenceLinker, known, set]
    | some link => simp [tryConvertReference, resolveReference, Linker.link, referenceLinker, known, set, update]

/-- The objects in `objects`, as they are met. -/
def metOf (paths : JsonPaths J) (objects : List (DocumentObject J)) : List (Met String ReferenceObject TakenReference) :=
  objects.filterMap (·.met paths)

theorem metOf_append (before after : List (DocumentObject J)) :
    metOf paths (before ++ after) = metOf paths before ++ metOf paths after := List.filterMap_append

theorem updateReferenceJsonSchemaProperty_eq (place : Place) (json : J) (p : JsonSchemaProperty) :
    updateReferenceJsonSchemaProperty paths place json p resolver =
      referenceLinker.run (metOf paths [.property place json p]) resolver := by
  have single (o : DocumentObject J) : referenceLinker.run (metOf paths [o]) resolver =
      (o.met paths).elim (some resolver) (referenceLinker.step resolver) := by
    rw [metOf]
    cases met : o.met paths with
    | none => simp [met, Linker.run]
    | some item => simp [met, Linker.run]
  rw [single, updateReferenceJsonSchemaProperty]
  cases direct : paths.selectToken json s!"properties.{p.key}.$ref" with
  | none => simp [DocumentObject.met, DocumentObject.Refused, DocumentObject.found, direct, Linker.step]
  | some ref =>
    cases items : paths.selectToken json s!"properties.{p.key}.items.$ref" with
    | none => simp [DocumentObject.met, DocumentObject.Refused, DocumentObject.found, direct, items, Linker.step]
    | some itemsRef =>
      have found : DocumentObject.found paths json p.key = some (ref, itemsRef) := by
        simp [DocumentObject.found, direct, items]
      cases text : ref.or itemsRef with
      | none => simp [DocumentObject.met, DocumentObject.Refused, DocumentObject.taken, found, text]
      | some reference =>
        have met : DocumentObject.met paths (.property place json p) = some (.use ⟨⟨place ++ ["properties", p.key],
            .jsonSchema⟩, reference, .property p.isArray itemsRef.isSome⟩) := by
          simp [DocumentObject.met, DocumentObject.Refused, DocumentObject.taken, found, text]
        simp only [Option.bind_eq_bind, Option.bind_some, text, met, Option.elim_some, Linker.step, Linker.link,
          resolveReference, referenceLinker]
        cases known : resolver.defs.lookup reference with
        | none => rfl
        | some value =>
          by_cases schema : value.type = .jsonSchema
          · have kept : (some value).filter (fun x => decide (x.type = .jsonSchema)) = some value := by simp [schema]
            cases array : p.isArray <;> simp [kept, addItem, setReference, schema, update]
          · have dropped : (some value).filter (fun x => decide (x.type = .jsonSchema)) = none := by simp [schema]
            simp only [dropped, schema, if_false]
            rfl

theorem updateReferenceJsonSchemaProperties_eq (place : Place) (schema : FaasNetJsonSchema J) :
    updateReferenceJsonSchemaProperties paths place schema resolver =
      referenceLinker.run (metOf paths (schema.properties.map (.property place schema.json))) resolver := by
  rw [updateReferenceJsonSchemaProperties]
  generalize schema.properties = properties
  induction properties generalizing resolver with
  | nil => rfl
  | cons p rest ih =>
    have split : metOf paths ((p :: rest).map (.property place schema.json)) =
        metOf paths [.property place schema.json p] ++ metOf paths (rest.map (.property place schema.json)) :=
      metOf_append [_] _
    rw [split, Linker.run_append, List.foldlM_cons, updateReferenceJsonSchemaProperty_eq]
    exact Option.bind_congr fun _ _ => ih

theorem parseJson_eq (path : List String) (obj : ReferenceObject) (ref : Option String)
    {populate : FaasNetReferenceResolver → Option FaasNetReferenceResolver} {members : List (DocumentObject J)}
    (populates : ∀ resolver, populate resolver = referenceLinker.run (metOf paths members) resolver) :
    parseJson paths path obj ref populate resolver = referenceLinker.run
      (metOf paths (ref.elim (members ++ [.target path obj]) (.reference obj · :: members))) resolver := by
  cases ref with
  | none =>
    rw [parseJson, Option.elim_none, metOf_append, Linker.run_append, populates]
    refine Option.bind_congr fun next _ => ?_
    rw [addReference_eq]
    exact (Option.bind_fun_some _).symm
  | some reference =>
    have split : metOf paths (.reference obj reference :: members) =
        .use ⟨obj, reference, .object⟩ :: metOf paths members := rfl
    rw [parseJson, Option.elim_some, split, Linker.run_cons, tryConvertReference_eq]
    exact Option.bind_congr fun _ _ => populates _

/-- Nothing else is read of the object. -/
theorem parseJson_leaf_eq (path : List String) (obj : ReferenceObject) (ref : Option String) :
    parseJson paths path obj ref some resolver = referenceLinker.run
      (metOf paths (ref.elim ([] ++ [.target path obj]) (.reference obj · :: []))) resolver :=
  parseJson_eq path obj ref fun _ => rfl

theorem readSchema_eq (path : List String) (place : Place) (schema : FaasNetJsonSchema J) :
    readSchema paths path place schema resolver =
      referenceLinker.run (metOf paths (schemaObjects path place schema)) resolver := by
  have split : metOf paths (schemaObjects path place schema) =
      metOf paths (schema.ref.elim ([] ++ [.target path ⟨place, .jsonSchema⟩]) (.reference ⟨place, .jsonSchema⟩ · :: [])) ++
        metOf paths (schema.properties.map (.property place schema.json)) := by
    rw [← metOf_append, schemaObjects]
    cases schema.ref <;> rfl
  rw [readSchema, parseJson_leaf_eq, split, Linker.run_append]
  exact Option.bind_congr fun _ _ => updateReferenceJsonSchemaProperties_eq place schema

theorem run_metOf_flatMap {ι : Type*} (objects : ι → List (DocumentObject J)) (parts : List ι) :
    referenceLinker.run (metOf paths (parts.flatMap objects)) resolver =
      parts.foldlM (fun resolver part => referenceLinker.run (metOf paths (objects part)) resolver) resolver := by
  rw [metOf, List.filterMap_flatMap]
  exact Linker.run_flatMap _ parts

theorem readMessage_eq (place : Place) (message : AsyncMessage J) :
    readMessage paths place message resolver =
      referenceLinker.run (metOf paths (messageObjects place message)) resolver := by
  refine parseJson_eq place _ message.ref fun resolver => ?_
  rw [run_metOf_flatMap]
  simp only [readSchema_eq]

theorem readPart_eq (part : Place × DocumentPart J) :
    readPart paths part resolver = referenceLinker.run (metOf paths (partObjects part)) resolver := by
  obtain ⟨place, schema | message | ref | ref⟩ := part
  · exact readSchema_eq place place schema
  · exact readMessage_eq place message
  · have read : parseJson paths place ⟨place, .channelBindings⟩ ref some resolver = _ := parseJson_leaf_eq place _ ref
    cases ref <;> exact read
  · have read : parseJson paths place ⟨place, .operationBindings⟩ ref some resolver = _ := parseJson_leaf_eq place _ ref
    cases ref <;> exact read

/-- **A document is read as one pass over its objects.** -/
theorem AsyncApiDocument.read_eq (document : AsyncApiDocument J) :
    document.read paths = referenceLinker.run (metOf paths document.objects) noReferences := by
  rw [objects, run_metOf_flatMap]
  simp only [read, readParts, readPart_eq]

end

end FaasNet.StateMachine
