import Mathlib.Data.List.Nodup
import FaasNet.StateMachine.SchemaReferences

/-!
# The order of targets and references

Two documents with the same objects in other orders. An object that refers to another one is linked to it at once or
afterwards; this is the same where `IsArray` of a property says what its text says.
-/

namespace FaasNet.StateMachine

open FaasNet.Lib FaasNetReferenceResolver

section
variable {J : Type*}

/-- What is registered, with the paths. -/
def targets (paths : JsonPaths J) (objects : List (DocumentObject J)) : List (String × ReferenceObject) :=
  Met.defsOf (metOf paths objects)

namespace AsyncApiDocument

/-- The objects that are registered under a path. -/
def registered (document : AsyncApiDocument J) (paths : JsonPaths J) (ref : String) : List ReferenceObject :=
  ((targets paths document.objects).filter (·.1 = ref)).map (·.2)

/-- Every `$ref` has one target, of the type that the place asks for. -/
def Closed (document : AsyncApiDocument J) (paths : JsonPaths J) : Prop :=
  ∀ o ∈ document.objects, ∀ ref, o.ref = some ref →
    ∃ value, document.registered paths ref = [value] ∧ value.type = o.obj.type

/-- The same targets and references in another order. -/
def Reordered (document document' : AsyncApiDocument J) : Prop := document.objects.Perm document'.objects

end AsyncApiDocument

/-- `Reference` is set, or the target has been added to `Items` once. -/
def Linked.To (linked : Linked) (place : Place) : Prop :=
  linked = { reference := some place } ∨ linked = { items := [place] }

/-- Both documents are read, and each object that refers to another one is linked to it, in the same way. -/
def LinkedAlike (paths : JsonPaths J) (document document' : AsyncApiDocument J) : Prop :=
  ∃ resolver resolver', document.read paths = some resolver ∧ document'.read paths = some resolver' ∧
    ∀ o ∈ document.objects, ∀ ref, o.ref = some ref →
      resolver.links o.obj.place = resolver'.links o.obj.place ∧
      ∀ value ∈ document.registered paths ref, (resolver.links o.obj.place).To value.place

/-- Whether the target goes to `Items`, if it has been met (`first`) and if not. -/
def TakenBy.array (first : Bool) : TakenBy → Bool
  | .object => false
  | .property isArray ofItems => if first then isArray else ofItems

/-- A path is registered by the time the converter comes to an object. -/
def AsyncApiDocument.ComesFirst (document : AsyncApiDocument J) (paths : JsonPaths J) (ref : String)
    (o : DocumentObject J) : Prop :=
  ∃ before after, document.objects = before ++ o :: after ∧ ref ∈ (targets paths before).map (·.1)

/-- A path that is registered only afterwards, for an object without a reference of its own, is one of a schema. -/
def AsyncApiDocument.StraysFit (document : AsyncApiDocument J) (paths : JsonPaths J) : Prop :=
  ∀ before o after, document.objects = before ++ o :: after → o.ref = none → ∀ use, o.taken paths = some use →
    (targets paths before).lookup use.reference = none →
      ∀ value, (targets paths after).lookup use.reference = some value → value.type = .jsonSchema

/-- When the order does not matter. -/
structure OrderFree (paths : JsonPaths J) (document document' : AsyncApiDocument J) : Prop where
  once : ((targets paths document.objects).map (·.1)).Nodup
  accepted : ∀ o ∈ document.objects, ¬ o.Refused paths
  found : ∀ o ∈ document.objects, ∀ ref, o.ref = some ref → (o.taken paths).map (·.reference) = some ref
  alike : ∀ o ∈ document.objects, ∀ ref, o.ref = some ref → ∀ use, o.taken paths = some use →
    (document.ComesFirst paths ref o ↔ document'.ComesFirst paths ref o) ∨
      use.takenBy.array true = use.takenBy.array false
  strays : document.StraysFit paths ∧ document'.StraysFit paths

variable {paths : JsonPaths J} {document document' : AsyncApiDocument J} {resolver : FaasNetReferenceResolver}
  {o : DocumentObject J} {objects before after : List (DocumentObject J)} {use : TakenReference}

/-- A reference that is taken belongs to its object. -/
theorem obj_of_taken (taken : o.taken paths = some use) : use.obj = o.obj := by
  cases o with
  | target path obj => cases taken
  | reference obj ref =>
    obtain rfl := Option.some.inj taken
    rfl
  | property place json p =>
    obtain ⟨refs, -, taken⟩ := Option.bind_eq_some_iff.mp taken
    obtain ⟨reference, -, rfl⟩ := Option.map_eq_some_iff.mp taken
    rfl

/-- What is taken is not refused. -/
theorem not_refused_of_taken (taken : o.taken paths = some use) : ¬ o.Refused paths := by
  cases o with
  | target path obj => cases taken
  | reference obj ref => exact id
  | property place json p =>
    intro refused
    rw [DocumentObject.taken, refused] at taken
    cases taken

theorem met_eq_use_iff : o.met paths = some (.use use) ↔ o.taken paths = some use := by
  constructor
  · intro met
    cases o with
    | target path obj => cases met
    | reference obj ref =>
      cases met
      rfl
    | property place json p =>
      rw [DocumentObject.met] at met
      split at met
      · cases met
      · obtain ⟨use, taken, ⟨⟩⟩ := Option.map_eq_some_iff.mp met
        exact taken
  · intro taken
    have accepted := not_refused_of_taken taken
    cases o with
    | target path obj => cases taken
    | reference obj ref =>
      obtain rfl := Option.some.inj taken
      rfl
    | property place json p =>
      rw [DocumentObject.met, if_neg accepted, taken]
      rfl

theorem met_eq_failure_iff : o.met paths = some .failure ↔ o.Refused paths := by
  cases o with
  | target path obj => simp [DocumentObject.met, DocumentObject.Refused]
  | reference obj ref => simp [DocumentObject.met, DocumentObject.Refused]
  | property place json p =>
    rw [DocumentObject.met]
    split
    · next refused => simp [refused]
    · next accepted => simp [accepted]

/-- A definition is met under the path that is written of it. -/
theorem met_eq_define_iff {key : String} {value : ReferenceObject} : o.met paths = some (.define key value) ↔
    ∃ path, o = .target path value ∧ formatPath (paths.path path) = key := by
  cases o with
  | target path obj => simp [DocumentObject.met, and_comm]
  | reference obj ref => simp [DocumentObject.met]
  | property place json p =>
    rw [DocumentObject.met]
    split <;> simp

/-- The targets are the objects with their paths. -/
theorem mem_targets {key : String} {value : ReferenceObject} : (key, value) ∈ targets paths objects ↔
    ∃ path, .target path value ∈ objects ∧ formatPath (paths.path path) = key := by
  rw [targets, Met.mem_defsOf, metOf, List.mem_filterMap]
  constructor
  · rintro ⟨o, mem, met⟩
    obtain ⟨path, rfl, eq⟩ := met_eq_define_iff.mp met
    exact ⟨path, mem, eq⟩
  · rintro ⟨path, mem, rfl⟩
    exact ⟨_, mem, rfl⟩

theorem targets_append : targets paths (before ++ after) = targets paths before ++ targets paths after := by
  rw [targets, metOf_append, Met.defsOf_append]
  rfl

namespace AsyncApiDocument

/-- What is registered for a reference is a target of that name. -/
theorem mem_registered {ref : String} {value : ReferenceObject} :
    value ∈ document.registered paths ref ↔ (ref, value) ∈ targets paths document.objects := by
  simp [registered]

/-- The order of the objects does not matter to what is registered. -/
theorem Reordered.registered (reordered : Reordered document document') (ref : String) :
    (document.registered paths ref).Perm (document'.registered paths ref) :=
  (((reordered.filterMap _).filterMap _).filter _).map _

/-- A document stays closed in another order. -/
theorem Closed.of_reordered (closed : document.Closed paths) (reordered : Reordered document document') :
    document'.Closed paths := by
  intro o mem ref own
  obtain ⟨value, one, type⟩ := closed o (reordered.mem_iff.mpr mem) ref own
  have same : (document.registered paths ref).Perm (document'.registered paths ref) := reordered.registered ref
  rw [one] at same
  exact ⟨value, (List.singleton_perm.mp same).symm, type⟩

/-- An object is registered under one path. -/
theorem key_of_place {key key' : String} {value value' : ReferenceObject}
    (mem : (key, value) ∈ targets paths document.objects) (mem' : (key', value') ∈ targets paths document.objects)
    (same : value.place = value'.place) : key = key' := by
  obtain ⟨path, here, rfl⟩ := mem_targets.mp mem
  obtain ⟨path', here', rfl⟩ := mem_targets.mp mem'
  have eq := List.inj_on_of_nodup_map document.placesApart here here' same
  cases eq
  rfl

end AsyncApiDocument

theorem starts_noReferences : noReferences.Starts := ⟨rfl, rfl⟩

theorem mem_metOf_use : .use use ∈ metOf paths objects ↔ ∃ o ∈ objects, o.taken paths = some use := by
  simp only [metOf, List.mem_filterMap, met_eq_use_iff]

theorem mem_metOf_failure : .failure ∈ metOf paths objects ↔ ∃ o ∈ objects, o.Refused paths := by
  simp only [metOf, List.mem_filterMap, met_eq_failure_iff]

/-- A use that is met comes from an object, and the others from those around it. -/
theorem metOf_eq_split {before' after' : List (Met String ReferenceObject TakenReference)}
    (eq : metOf paths objects = before' ++ .use use :: after') :
    ∃ before o after, objects = before ++ o :: after ∧ o.taken paths = some use ∧ metOf paths before = before' ∧
      metOf paths after = after' := by
  obtain ⟨before, rest, rfl, met, eq⟩ := List.filterMap_eq_append_iff.mp eq
  obtain ⟨skipped, o, after, rfl, none, taken, eq⟩ := List.filterMap_eq_cons_iff.mp eq
  refine ⟨before ++ skipped, o, after, by simp, met_eq_use_iff.mp taken, ?_, eq⟩
  rw [metOf_append, ← met]
  have nothing : metOf paths skipped = [] := List.filterMap_eq_nil_iff.mpr none
  rw [nothing, List.append_nil]
  rfl

theorem metOf_cons_of_taken (taken : o.taken paths = some use) :
    metOf paths (o :: after) = .use use :: metOf paths after := by
  rw [metOf, List.filterMap_cons, met_eq_use_iff.mpr taken]
  rfl

theorem targets_cons_of_taken (taken : o.taken paths = some use) :
    targets paths (o :: after) = targets paths after := by
  rw [targets, metOf_cons_of_taken taken]
  rfl

/-- A reference is no target. -/
theorem targets_split (eq : document.objects = before ++ o :: after) (taken : o.taken paths = some use) :
    targets paths document.objects = targets paths before ++ targets paths after := by
  rw [eq, targets_append, targets_cons_of_taken taken]

/-- When a document is read. -/
theorem AsyncApiDocument.read_isSome_iff : (document.read paths).isSome ↔
    (∀ o ∈ document.objects, ¬ o.Refused paths) ∧ ((targets paths document.objects).map (·.1)).Nodup ∧
      ∀ before o after, document.objects = before ++ o :: after → ∀ use, o.taken paths = some use →
        referenceLinker.Fits use (targets paths before) (targets paths after) := by
  rw [read_eq, Linker.run_isSome_iff starts_noReferences, mem_metOf_failure]
  simp only [not_exists, not_and]
  refine and_congr_right fun _ => and_congr_right fun _ => ⟨fun fits before o after eq use taken => ?_, ?_⟩
  · refine fits (metOf paths before) use (metOf paths after) ?_
    rw [eq, metOf_append, metOf_cons_of_taken taken]
  · intro fits before' use after' split
    obtain ⟨before, o, after, eq, taken, rfl, rfl⟩ := metOf_eq_split split
    exact fits before o after eq use taken

/-- What a document leaves in an object. -/
theorem AsyncApiDocument.links_of_read (read : document.read paths = some resolver)
    (eq : document.objects = before ++ o :: after) : resolver.links o.obj.place =
      ((o.taken paths).bind fun use => referenceLinker.linkOf use (targets paths before) (targets paths after)).elim
        {} (· {}) := by
  have once := (read_isSome_iff.mp (Option.isSome_of_eq_some read)).2.1
  rw [read_eq] at read
  have apart : ∀ other ∈ before ++ after, other.obj.place ≠ o.obj.place := by
    have places : (document.objects.map (·.obj.place)).Nodup := document.placesApart
    rw [eq, List.map_append, List.map_cons] at places
    have split := (List.nodup_middle.mp places)
    rw [List.nodup_cons, ← List.map_append] at split
    exact fun other mem same => split.1 (List.mem_map.mpr ⟨other, mem, same⟩)
  cases taken : o.taken paths with
  | none =>
    have other (use : TakenReference) (mem : .use use ∈ metOf paths document.objects) : use.obj.place ≠ o.obj.place := by
      obtain ⟨o', mem, taken'⟩ := mem_metOf_use.mp mem
      rw [obj_of_taken taken']
      rw [eq, List.mem_append, List.mem_cons] at mem
      rcases mem with mem | rfl | mem
      · exact apart o' (List.mem_append_left _ mem)
      · rw [taken] at taken'
        cases taken'
      · exact apart o' (List.mem_append_right _ mem)
    exact (Linker.run_other read other once).2.1 rfl
  | some use =>
    rw [eq, metOf_append, metOf_cons_of_taken taken] at read
    rw [eq, targets_append] at once
    have link := Linker.link_of_run starts_noReferences read (fun other mem => ?_) ?_
    · rw [← obj_of_taken taken]
      exact link
    · rw [← metOf_append] at mem
      obtain ⟨o', mem, taken'⟩ := mem_metOf_use.mp mem
      change other.obj.place ≠ use.obj.place
      rw [obj_of_taken taken', obj_of_taken taken]
      exact apart o' mem
    · rw [Met.defsOf_append]
      rwa [targets_cons_of_taken taken] at once

/-! ## Links of references -/

/-- A place is linked to another one, or to one of its items. -/
def linkTo (place : Place) (array : Bool) (linked : Linked) : Linked :=
  if array then { linked with items := linked.items ++ [place] } else { linked with reference := some place }

/-- A link goes to its place. -/
theorem linkTo_to (place : Place) (array : Bool) : (linkTo place array {}).To place := by
  cases array with
  | false => exact .inl rfl
  | true => exact .inr rfl

/-- A link goes to one place. -/
theorem place_of_linkTo {place place' : Place} {array : Bool} (linked : (linkTo place array {}).To place') :
    place = place' := by
  cases array <;> rcases linked with linked | linked <;> simp_all [linkTo]

/-- Links to an item and to a value are different. -/
theorem array_of_linkTo {place : Place} {array array' : Bool} (eq : linkTo place array {} = linkTo place array' {}) :
    array = array' := by
  cases array <;> cases array' <;> simp_all [linkTo]

/-- A reference is set if the types agree. -/
theorem setReference_of_type {obj value : ReferenceObject} (type : obj.type = value.type) :
    setReference obj value = some (linkTo value.place false) := by
  rw [setReference, if_pos type]
  rfl

/-- A schema is added to the items. -/
theorem addItem_of_type {value : ReferenceObject} (type : value.type = .jsonSchema) :
    addItem value = some (linkTo value.place true) := by
  rw [addItem, if_pos type]
  rfl

theorem linkTo_of_setReference {obj value : ReferenceObject} {link : Linked → Linked}
    (set : setReference obj value = some link) : link = linkTo value.place false := by
  by_cases type : obj.type = value.type
  · exact (Option.some.inj ((setReference_of_type type).symm.trans set)).symm
  · rw [setReference, if_neg type] at set
    cases set

theorem linkTo_of_addItem {value : ReferenceObject} {link : Linked → Linked} (added : addItem value = some link) :
    link = linkTo value.place true := by
  by_cases type : value.type = .jsonSchema
  · exact (Option.some.inj ((addItem_of_type type).symm.trans added)).symm
  · rw [addItem, if_neg type] at added
    cases added

/-- Only schemas have properties. -/
theorem type_of_taken (taken : o.taken paths = some use) (isArray ofItems : Bool)
    (property : use.takenBy = .property isArray ofItems) : o.obj.type = .jsonSchema := by
  cases o with
  | target path obj => cases taken
  | reference obj ref =>
    obtain rfl := Option.some.inj taken
    cases property
  | property place json p => rfl

/-- A target of the type that the reference asks for is linked, at once or later. -/
theorem linked_of_type {value : ReferenceObject} (taken : o.taken paths = some use) (type : value.type = o.obj.type) :
    referenceLinker.now use value = some (some (linkTo value.place (use.takenBy.array true))) ∧
      referenceLinker.later (referenceLinker.keep use) value = some (linkTo value.place (use.takenBy.array false)) := by
  have schema := type_of_taken taken
  have obj := obj_of_taken taken
  obtain ⟨_, reference, takenBy⟩ := use
  subst obj
  cases takenBy with
  | object => simp [referenceLinker, setReference_of_type type.symm, TakenBy.array]
  | property isArray ofItems =>
    have isSchema := type.trans (schema isArray ofItems rfl)
    cases isArray <;> cases ofItems <;>
      simp [referenceLinker, setReference_of_type type.symm, addItem_of_type isSchema, isSchema, TakenBy.array]

/-- With its own reference, a reference's target is found; it decides where it stood. -/
theorem linkOf_registered {ref : String} {value : ReferenceObject} (eq : document.objects = before ++ o :: after)
    (one : document.registered paths ref = [value]) (type : value.type = o.obj.type) (taken : o.taken paths = some use)
    (same : use.reference = ref) :
    referenceLinker.Fits use (targets paths before) (targets paths after) ∧
      referenceLinker.linkOf use (targets paths before) (targets paths after) =
        some (linkTo value.place (use.takenBy.array (decide (ref ∈ (targets paths before).map (·.1))))) := by
  subst same
  have all := targets_split eq taken
  have only (v) (mem : (use.reference, v) ∈ targets paths document.objects) : v = value := by
    have registered := AsyncApiDocument.mem_registered.mpr mem
    rw [one] at registered
    exact List.mem_singleton.mp registered
  have present : (use.reference, value) ∈ targets paths document.objects :=
    AsyncApiDocument.mem_registered.mp (one ▸ List.mem_singleton_self _)
  rw [all] at only present
  obtain ⟨now, later⟩ := linked_of_type taken type
  have key : referenceLinker.key use = use.reference := rfl
  rw [Linker.Fits, Linker.linkOf, key]
  cases first : (targets paths before).lookup use.reference with
  | some v =>
    obtain ⟨l₁, l₂, eq, -⟩ := List.lookup_eq_some_iff.mp first
    have mem : (use.reference, v) ∈ targets paths before := by rw [eq]; simp
    obtain rfl := only v (List.mem_append_left _ mem)
    have known : use.reference ∈ (targets paths before).map (·.1) := List.mem_map.mpr ⟨_, mem, rfl⟩
    rw [decide_eq_true known]
    simp [now]
  | none =>
    have unknown : use.reference ∉ (targets paths before).map (·.1) := by
      intro mem
      obtain ⟨d, mem, eq⟩ := List.mem_map.mp mem
      exact bne_iff_ne.mp (List.lookup_eq_none_iff.mp first d mem) eq.symm
    have afterwards : (use.reference, value) ∈ targets paths after :=
      (List.mem_append.mp present).resolve_left fun mem => unknown (List.mem_map.mpr ⟨_, mem, rfl⟩)
    rw [decide_eq_false unknown]
    cases last : (targets paths after).lookup use.reference with
    | none => exact absurd rfl (bne_iff_ne.mp (List.lookup_eq_none_iff.mp last _ afterwards))
    | some v =>
      obtain ⟨l₁, l₂, eq, -⟩ := List.lookup_eq_some_iff.mp last
      obtain rfl := only v (List.mem_append_right _ (by rw [eq]; simp))
      simp [later]

/-- A patch links to the place of the value. -/
theorem linkTo_of_later {unprocessed : UnprocessedObject} {value : ReferenceObject} {link : Linked → Linked}
    (later : referenceLinker.later unprocessed value = some link) : ∃ array, link = linkTo value.place array := by
  by_cases array : unprocessed.isArray
  · exact ⟨true, linkTo_of_addItem (by simpa [referenceLinker, array] using later)⟩
  · exact ⟨false, linkTo_of_setReference (by simpa [referenceLinker, array] using later)⟩

/-- A link at once goes to the place of the value as well. -/
theorem linkTo_of_now {value : ReferenceObject} {link : Linked → Linked}
    (now : referenceLinker.now use value = some (some link)) : ∃ array, link = linkTo value.place array := by
  obtain ⟨obj, reference, _ | ⟨isArray, ofItems⟩⟩ := use
  · exact ⟨false, linkTo_of_setReference (by simpa [referenceLinker] using now)⟩
  · by_cases type : value.type = .jsonSchema
    · cases isArray with
      | false =>
        have set : setReference obj value = some link := by simpa [referenceLinker, type] using now
        exact ⟨false, linkTo_of_setReference set⟩
      | true => exact ⟨true, linkTo_of_addItem (by simpa [referenceLinker, type] using now)⟩
    · simp [referenceLinker, type] at now

/-- What is linked is one of the objects registered under the text that was taken. -/
theorem exists_of_linkOf {link : Linked → Linked} {known coming : List (String × ReferenceObject)}
    (linked : referenceLinker.linkOf use known coming = some link) :
    ∃ value array, (use.reference, value) ∈ known ++ coming ∧ link = linkTo value.place array := by
  have key : referenceLinker.key use = use.reference := rfl
  have mem {list : List (String × ReferenceObject)} {value} (found : list.lookup use.reference = some value) :
      (use.reference, value) ∈ list := by
    obtain ⟨l₁, l₂, eq, -⟩ := List.lookup_eq_some_iff.mp found
    rw [eq]
    simp
  rw [Linker.linkOf, key] at linked
  cases first : known.lookup use.reference with
  | some value =>
    rw [first] at linked
    obtain ⟨array, eq⟩ := linkTo_of_now (Option.join_eq_some_iff.mp linked)
    exact ⟨value, array, List.mem_append_left _ (mem first), eq⟩
  | none =>
    rw [first] at linked
    obtain ⟨value, last, later⟩ := Option.bind_eq_some_iff.mp linked
    obtain ⟨array, eq⟩ := linkTo_of_later later
    exact ⟨value, array, List.mem_append_right _ (mem last), eq⟩

/-! ## Both orders -/

/-- A target comes first if it is among those before. -/
theorem comesFirst_iff {ref : String} (eq : document.objects = before ++ o :: after) :
    document.ComesFirst paths ref o ↔ ref ∈ (targets paths before).map (·.1) := by
  constructor
  · rintro ⟨before', after', eq', first⟩
    have distinct : (before' ++ o :: after').Nodup := eq' ▸ List.Nodup.of_map _ document.placesApart
    have notMem := (List.nodup_cons.mp (List.nodup_middle.mp distinct)).1
    obtain ⟨rfl, -⟩ := (List.append_cons_inj_of_notMem (fun mem => notMem (List.mem_append_left _ mem))
      fun mem => notMem (List.mem_append_right _ mem)).mp (eq'.symm.trans eq)
    exact first
  · exact fun first => ⟨before, after, eq, first⟩

/-- An object whose reference has been taken for what it is. -/
theorem links_of_found {ref : String} {value : ReferenceObject} (read : document.read paths = some resolver)
    (mem : o ∈ document.objects) (one : document.registered paths ref = [value]) (type : value.type = o.obj.type)
    (taken : o.taken paths = some use) (same : use.reference = ref) :
    ∃ first : Bool, (first = true ↔ document.ComesFirst paths ref o) ∧
      resolver.links o.obj.place = linkTo value.place (use.takenBy.array first) {} := by
  obtain ⟨before, after, eq⟩ := List.append_of_mem mem
  have link := (linkOf_registered eq one type taken same).2
  refine ⟨_, decide_eq_true_iff.trans (comesFirst_iff eq).symm, ?_⟩
  rw [AsyncApiDocument.links_of_read read eq, taken, Option.bind_some, link]
  rfl

/-- A property that takes a reference it does not have: this fails if a later object of another type bears the path. -/
theorem stray_fits {value : ReferenceObject} (taken : o.taken paths = some use) (own : o.ref = none) :
    referenceLinker.now use value ≠ none ∧
      (referenceLinker.later (referenceLinker.keep use) value ≠ none ↔ value.type = .jsonSchema) := by
  cases o with
  | target path obj => cases taken
  | reference obj ref => cases own
  | property place json p =>
    obtain ⟨refs, -, found⟩ := Option.bind_eq_some_iff.mp taken
    obtain ⟨reference, -, rfl⟩ := Option.map_eq_some_iff.mp found
    constructor
    · by_cases schema : value.type = .jsonSchema
      · cases p.isArray <;> simp [referenceLinker, setReference, addItem, schema]
      · simp [referenceLinker, schema]
    · cases refs.2.isSome with
      | false =>
        simp only [referenceLinker, Bool.false_eq_true, if_false, setReference]
        simpa using eq_comm
      | true => simp [referenceLinker, addItem]

/-- A closed document is read if each target has a name of its own and nothing is refused. -/
theorem AsyncApiDocument.Closed.read_isSome (closed : document.Closed paths)
    (once : ((targets paths document.objects).map (·.1)).Nodup) (accepted : ∀ o ∈ document.objects, ¬ o.Refused paths)
    (found : ∀ o ∈ document.objects, ∀ ref, o.ref = some ref → (o.taken paths).map (·.reference) = some ref)
    (strays : document.StraysFit paths) : (document.read paths).isSome := by
  refine read_isSome_iff.mpr ⟨accepted, once, fun before o after eq use taken => ?_⟩
  have mem : o ∈ document.objects := by rw [eq]; simp
  cases own : o.ref with
  | some ref =>
    obtain ⟨value, one, type⟩ := closed o mem ref own
    have same := found o mem ref own
    rw [taken] at same
    exact (linkOf_registered eq one type taken (Option.some.inj same)).1
  | none =>
    have key : referenceLinker.key use = use.reference := rfl
    rw [Linker.Fits, key]
    cases first : (targets paths before).lookup use.reference with
    | none => exact fun value last => (stray_fits taken own).2.mpr (strays before o after eq own use taken first value last)
    | some value => exact (stray_fits taken own).1

/-- In a document that is read, what is left at the end fits. -/
theorem AsyncApiDocument.straysFit_of_read (read : (document.read paths).isSome) : document.StraysFit paths := by
  intro before o after eq own use taken first value last
  have fits := (read_isSome_iff.mp read).2.2 before o after eq use taken
  have key : referenceLinker.key use = use.reference := rfl
  rw [Linker.Fits, key, first] at fits
  exact (stray_fits taken own).2.mp (fits value last)

/-- **Two orders of a document are read alike exactly if no two objects have one path, every property is found, and those
whose target comes first in one order only are taken for arrays by their `items.$ref` and by `IsArray`, or by neither.** -/
theorem linkedAlike_iff (closed : document.Closed paths) (reordered : document.Reordered document') :
    LinkedAlike paths document document' ↔ OrderFree paths document document' := by
  have closed' := closed.of_reordered reordered
  have sameTargets : (targets paths document.objects).Perm (targets paths document'.objects) :=
    (reordered.filterMap _).filterMap _
  constructor
  · rintro ⟨resolver, resolver', read, read', alike⟩
    have isSome := Option.isSome_of_eq_some read
    obtain ⟨accepted, once, -⟩ := AsyncApiDocument.read_isSome_iff.mp isSome
    have found : ∀ o ∈ document.objects, ∀ ref, o.ref = some ref → (o.taken paths).map (·.reference) = some ref := by
      intro o mem ref own
      obtain ⟨value, one, type⟩ := closed o mem ref own
      have registered : value ∈ document.registered paths ref := one ▸ List.mem_singleton_self _
      have linked := (alike o mem ref own).2 value registered
      obtain ⟨before, after, eq⟩ := List.append_of_mem mem
      rw [AsyncApiDocument.links_of_read read eq] at linked
      cases taken : o.taken paths with
      | none =>
        rw [taken] at linked
        rcases linked with linked | linked <;> cases linked
      | some use =>
        rw [taken, Option.bind_some] at linked
        cases link : referenceLinker.linkOf use (targets paths before) (targets paths after) with
        | none =>
          rw [link] at linked
          rcases linked with linked | linked <;> cases linked
        | some f =>
          obtain ⟨other, array, there, rfl⟩ := exists_of_linkOf link
          rw [link] at linked
          rw [← targets_split eq taken] at there
          exact congrArg some (AsyncApiDocument.key_of_place there (AsyncApiDocument.mem_registered.mp registered)
            (place_of_linkTo linked))
    refine ⟨once, accepted, found, fun o mem ref own use taken => ?_, AsyncApiDocument.straysFit_of_read isSome,
      AsyncApiDocument.straysFit_of_read (Option.isSome_of_eq_some read')⟩
    have same := found o mem ref own
    rw [taken] at same
    obtain ⟨value, one, type⟩ := closed o mem ref own
    obtain ⟨first, iff, links⟩ := links_of_found read mem one type taken (Option.some.inj same)
    have one' : document'.registered paths ref = [value] :=
      (List.singleton_perm.mp (one ▸ reordered.registered ref)).symm
    obtain ⟨first', iff', links'⟩ := links_of_found read' (reordered.mem_iff.mp mem) one' type taken (Option.some.inj same)
    have arrays := array_of_linkTo (links.symm.trans ((alike o mem ref own).1.trans links'))
    rw [← iff, ← iff']
    cases first <;> cases first' <;> simp_all
  · intro free
    have isSome := closed.read_isSome free.once free.accepted free.found free.strays.1
    have isSome' := closed'.read_isSome ((sameTargets.map _).nodup_iff.mp free.once)
      (fun o mem => free.accepted o (reordered.mem_iff.mpr mem)) (fun o mem => free.found o (reordered.mem_iff.mpr mem))
      free.strays.2
    obtain ⟨resolver, read⟩ := Option.isSome_iff_exists.mp isSome
    obtain ⟨resolver', read'⟩ := Option.isSome_iff_exists.mp isSome'
    refine ⟨resolver, resolver', read, read', fun o mem ref own => ?_⟩
    obtain ⟨use, taken, same⟩ := Option.map_eq_some_iff.mp (free.found o mem ref own)
    obtain ⟨value, one, type⟩ := closed o mem ref own
    obtain ⟨first, iff, links⟩ := links_of_found read mem one type taken same
    have one' : document'.registered paths ref = [value] :=
      (List.singleton_perm.mp (one ▸ reordered.registered ref)).symm
    obtain ⟨first', iff', links'⟩ := links_of_found read' (reordered.mem_iff.mp mem) one' type taken same
    rw [links, links', one]
    refine ⟨?_, fun other among => List.mem_singleton.mp among ▸ linkTo_to _ _⟩
    have alike := free.alike o mem ref own use taken
    rw [← iff, ← iff'] at alike
    cases first <;> cases first' <;> simp_all

end

/-! ## A schema with an array of another one -/

/-- Paths of plain names; an object is given by the texts at its paths. -/
def plainPaths : JsonPaths (List (String × String)) where
  path names := String.intercalate "." names
  selectToken json path := some (json.lookup path)

/-- The schema of pets. -/
def petPart : Place × DocumentPart (List (String × String)) :=
  (["components", "schemas", "Pet"], .schema { json := [] })

/-- `pets` has `items.$ref`, and `"type": "array"` if it is an array. -/
def ownerPart (isArray : Bool) : Place × DocumentPart (List (String × String)) :=
  (["components", "schemas", "Owner"], .schema {
    json := [("properties.pets.items.$ref", "#/components/schemas/Pet")]
    properties := [{ key := "pets", isArray := isArray, itemsRef := some "#/components/schemas/Pet" }] })

/-- The schema of pets is read before that of owners. -/
def petsFirst (isArray : Bool) : AsyncApiDocument (List (String × String)) where
  parts := [petPart, ownerPart isArray]
  placesApart := by cases isArray <;> decide

/-- The schema of owners is read before that of pets. -/
def ownersFirst (isArray : Bool) : AsyncApiDocument (List (String × String)) where
  parts := [ownerPart isArray, petPart]
  placesApart := by cases isArray <;> decide

/-- The property of owners that refers to pets. -/
def petsPlace : Place := ["components", "schemas", "Owner", "properties", "pets"]

/-- All references of the example are to the pet. -/
theorem own_pets {isArray : Bool} : ∀ o ∈ (petsFirst isArray).objects, ∀ ref, o.ref = some ref →
    ref = "#/components/schemas/Pet" ∧ o.obj = ⟨petsPlace, .jsonSchema⟩ := by
  intro o mem ref own
  obtain rfl | rfl | rfl : o = .target _ _ ∨ o = .target _ _ ∨ o = .property _ _ _ := by
    simpa [AsyncApiDocument.objects, petsFirst, petPart, ownerPart, partObjects, schemaObjects] using mem
  · cases own
  · cases own
  · exact ⟨(Option.some.inj own).symm, rfl⟩

/-- The example is closed. -/
theorem closed_petsFirst : (petsFirst true).Closed plainPaths := by
  intro o mem ref own
  obtain ⟨rfl, obj⟩ := own_pets o mem ref own
  exact ⟨⟨["components", "schemas", "Pet"], .jsonSchema⟩, by decide, obj ▸ rfl⟩

/-- The two documents have the same objects. -/
theorem reordered_pets : (petsFirst true).Reordered (ownersFirst true) := by
  have swapped : (partObjects petPart ++ partObjects (ownerPart true)).Perm
      (partObjects (ownerPart true) ++ partObjects petPart) := List.perm_append_comm
  exact swapped

/-- With its type, the array has the pets as items in both orders. -/
theorem linkedAlike_pets : LinkedAlike plainPaths (petsFirst true) (ownersFirst true) ∧
    OrderFree plainPaths (petsFirst true) (ownersFirst true) := by
  have first : ((petsFirst true).read plainPaths).map (·.links petsPlace) =
      some { items := [["components", "schemas", "Pet"]] } := by decide
  have last : ((ownersFirst true).read plainPaths).map (·.links petsPlace) =
      some { items := [["components", "schemas", "Pet"]] } := by decide
  obtain ⟨resolver, read, links⟩ := Option.map_eq_some_iff.mp first
  obtain ⟨resolver', read', links'⟩ := Option.map_eq_some_iff.mp last
  have alike : LinkedAlike plainPaths (petsFirst true) (ownersFirst true) := by
    refine ⟨resolver, resolver', read, read', fun o mem ref own => ?_⟩
    obtain ⟨rfl, obj⟩ := own_pets o mem ref own
    have one : (petsFirst true).registered plainPaths "#/components/schemas/Pet" =
        [⟨["components", "schemas", "Pet"], .jsonSchema⟩] := by decide
    rw [obj, links, links', one]
    exact ⟨rfl, fun value among => .inr (List.mem_singleton.mp among ▸ rfl)⟩
  exact ⟨alike, (linkedAlike_iff closed_petsFirst reordered_pets).mp alike⟩

/-- Two messages with payloads of their own. -/
def twoPayloads : AsyncApiDocument (List (String × String)) where
  parts := [(["components", "messages", "Bought"], .message { members := [("payload", { json := [] })] }),
    (["components", "messages", "Sold"], .message { members := [("payload", { json := [] })] })]
  placesApart := by decide

/-- Without its type, the array refers to the pets if they come first. Two payloads bear one path. -/
theorem not_linkedAlike_untyped : ¬ LinkedAlike plainPaths (petsFirst false) (ownersFirst false) ∧
    ¬ LinkedAlike plainPaths twoPayloads twoPayloads := by
  constructor
  · rintro ⟨resolver, resolver', read, read', alike⟩
    have first : ((petsFirst false).read plainPaths).map (·.links petsPlace) =
        some { reference := some ["components", "schemas", "Pet"] } := by decide
    have last : ((ownersFirst false).read plainPaths).map (·.links petsPlace) =
        some { items := [["components", "schemas", "Pet"]] } := by decide
    have mem : DocumentObject.property ["components", "schemas", "Owner"]
        [("properties.pets.items.$ref", "#/components/schemas/Pet")]
        { key := "pets", isArray := false, itemsRef := some "#/components/schemas/Pet" } ∈ (petsFirst false).objects := by
      simp [AsyncApiDocument.objects, petsFirst, petPart, ownerPart, partObjects, schemaObjects]
    have same := (alike _ mem _ rfl).1
    rw [read] at first
    rw [read'] at last
    have wrong := (Option.some.inj first).symm.trans (same.trans (Option.some.inj last))
    cases wrong
  · rintro ⟨resolver, -, read, -⟩
    have refused : twoPayloads.read plainPaths = none :=
      Option.not_isSome_iff_eq_none.mp (by decide)
    rw [refused] at read
    cases read

end FaasNet.StateMachine
