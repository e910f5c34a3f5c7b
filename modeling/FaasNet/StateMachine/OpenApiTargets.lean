import FaasNet.Lib.Methods
import FaasNet.Lib.Templates
import FaasNet.Lib.UrlEncoding
import FaasNet.StateMachine.StateData

/-!
# The URL of a REST call

`OpenAPIParser.BuildHTTPTarget` puts the values of an input into the template of an operation. A value in the path is encoded;
a query is joined of names and values as they are. The name of a parameter is given to `SelectToken`, which reads it as a
JSONPath: it may throw, find nothing, or find another value than that of the property with this name. Json.NET and the
validation of schemas are parameters.
-/

namespace FaasNet.StateMachine

open FaasNet.Lib FaasNet.Lib.Template

/-- Where a parameter stands in a request. -/
inductive OpenApiParameterKind where
  | Undefined
  | Body
  | Query
  | Path
  | Header
  | FormData
  | ModelBinding
  | Cookie
  deriving DecidableEq, Repr

/-- `OpenApiParameter`; `S` is the type of schemas. -/
structure OpenApiParameter (S : Type) where
  name : String
  kind : OpenApiParameterKind
  schema : S

/-- What is used of tokens and of schemas. -/
structure OpenApiServices (J S : Type) where
  type : J → JTokenType
  toText : J → String
  /-- The conversion of a string to a token. -/
  ofString : String → J
  /-- The property of an object with a name. The parser does not ask for it. -/
  property : J → String → Option J
  /-- `SelectToken`, with its exception. -/
  selectToken : J → String → Except String (Option J)
  validate : S → J → List String

/-- What is thrown when a request is built. -/
inductive TargetException where
  | json (message : String)
  | argument
  deriving DecidableEq, Repr

namespace OpenAPIParser

/-- `string.Join`. -/
def joinStrings (separator : String) : List String → String
  | [] => ""
  | [value] => value
  | value :: next :: values => value ++ separator ++ joinStrings separator (next :: values)

/-- `HttpUtility.UrlEncode`. -/
def urlEncode (text : String) : String := String.ofList (Url.encode text.toList)

/-- The variables of the loop. -/
structure Target where
  result : String
  queryParameters : List (String × String) := []
  validationErrors : List String := []
  deriving DecidableEq, Repr

section
variable {J S : Type} (services : OpenApiServices J S) (input : J)

/-- A value is put in: in the place of a placeholder, or to the query. -/
def Target.put (target : Target) (parameter : OpenApiParameter S) (value : String) : Except TargetException Target :=
  match parameter.kind with
  | .Path =>
    let placeholder := "\x7b" ++ parameter.name ++ "\x7d"
    .ok { target with
      result := String.ofList (replaceAll placeholder.toList (urlEncode value).toList target.result.toList) }
  | .Query =>
    if parameter.name ∈ target.queryParameters.map (·.1) then .error .argument
    else .ok { target with queryParameters := target.queryParameters ++ [(parameter.name, value)] }
  | _ => .ok target

/-- What is done for one parameter of the path or the query. -/
def addParameter (target : Target) (parameter : OpenApiParameter S) : Except TargetException Target := do
  let val ← ((services.selectToken input parameter.name).map fun token => token.getD (services.ofString "")).mapError .json
  let errors := services.validate parameter.schema val
  if errors ≠ [] then return { target with validationErrors := target.validationErrors ++ errors }
  else match services.type input with
    | .String => target.put parameter (services.toText input)
    | .Object => target.put parameter (services.toText val)
    | _ => return target

/-- The parameters that are looked at. -/
def used (parameters : List (OpenApiParameter S)) : List (OpenApiParameter S) :=
  parameters.filter fun p => p.kind = .Path ∨ p.kind = .Query

/-- `BuildHTTPTarget`: the URL, and the errors that are added. -/
def buildHTTPTarget (operationUrl : String) (parameters : Option (List (OpenApiParameter S))) :
    Except TargetException (String × List String) :=
  match parameters with
  | none => .ok (operationUrl, [])
  | some parameters => do
    let target ← (used parameters).foldlM (addParameter services input) { result := operationUrl }
    if target.queryParameters.isEmpty then return (target.result, target.validationErrors)
    else
      let queries := joinStrings "&" (target.queryParameters.map fun kvp => kvp.1 ++ "=" ++ kvp.2)
      return (target.result ++ "?" ++ queries, target.validationErrors)

end

/-! ## What is to be built -/

section
variable {J S : Type} (services : OpenApiServices J S) (values : String → Option String)

/-- Before the question mark, and after it. -/
def pathOf (url : String) : List Char := url.toList.takeWhile (· ≠ '?')

/-- What stands behind the question mark. -/
def queryOf (url : String) : List Char := (url.toList.dropWhile (· ≠ '?')).drop 1

/-- The placeholders are the parameters of the path; the literal text is that of a path. -/
structure IsTemplate (template : List Segment) (parameters : List (OpenApiParameter S)) : Prop where
  wellFormed : ∀ s ∈ template, s.WellFormed
  path : ∀ text, Segment.literal text ∈ template → '?' ∉ text ∧ '#' ∉ text
  expressions : ∀ name, Segment.placeholder name ∈ template ↔ ∃ p ∈ parameters, p.kind = .Path ∧ p.name.toList = name

/-- The encoding of a value in the place of each placeholder. -/
def rendered (template : List Segment) : List Char :=
  template.flatMap fun
    | .literal text => text
    | .placeholder name => Url.encode ((values (String.ofList name)).getD "").toList

/-- The query parameters that are in the input, with their values. -/
def given (parameters : List (OpenApiParameter S)) : List (String × String) :=
  parameters.filterMap fun p => if p.kind = .Query then (values p.name).map fun value => (p.name, value) else none

/-- The URL has the encoding of its value for each placeholder, and its query has the pairs that are in the input. -/
def BuildsTarget (input : J) (template : List Segment) (parameters : List (OpenApiParameter S)) : Prop :=
  ∃ url errors, buildHTTPTarget services input (String.ofList (text template)) (some parameters) = .ok (url, errors) ∧
    pathOf url = rendered values template ∧
    Url.queryPairs (queryOf url) =
      (given values parameters).map fun kvp => (Url.utf8 kvp.1.toList, Url.utf8 kvp.2.toList)

end

/-- The input is an object that has a string for each parameter of the path, and strings that their schemas accept for
parameters of the query. -/
structure StringInput {J S : Type} (services : OpenApiServices J S) (values : String → Option String) (input : J)
    (parameters : List (OpenApiParameter S)) : Prop where
  object : services.type input = .Object
  toText : ∀ value, services.toText (services.ofString value) = value
  properties : ∀ p ∈ used parameters, services.property input p.name = (values p.name).map services.ofString
  accepted : ∀ p ∈ used parameters, ∀ value, values p.name = some value →
    services.validate p.schema (services.ofString value) = []
  required : ∀ p ∈ parameters, p.kind = .Path → (values p.name).isSome
  distinct : ((used parameters).map (·.name)).Nodup

/-- An operation with all parameters of the path, and some of those of the query, in any order. -/
structure Among {S : Type} (ps parameters : List (OpenApiParameter S)) : Prop where
  subperm : ps.Subperm parameters
  path : ∀ p ∈ parameters, p.kind = .Path → p ∈ ps

/-- `SelectToken` finds under the name of each parameter the property with this name. -/
def Agrees {J S : Type} (services : OpenApiServices J S) (input : J) (parameters : List (OpenApiParameter S)) : Prop :=
  ∀ p ∈ used parameters, services.selectToken input p.name = .ok (services.property input p.name)

section
variable {J S : Type} (services : OpenApiServices J S) (input : J)

/-- What the parser takes for a parameter with this name, and its text. -/
def found (name : String) : J :=
  match services.selectToken input name with
  | .ok token => token.getD (services.ofString "")
  | .error _ => services.ofString ""

/-- The text that is found in the input under a name. -/
def foundText (name : String) : String := services.toText (found services input name)

/-- The schema of the parameter accepts it. -/
def takes (p : OpenApiParameter S) : Bool := (services.validate p.schema (found services input p.name)).isEmpty

/-- What a parameter adds to the query. -/
def addedBy (p : OpenApiParameter S) : Option (String × String) :=
  if p.kind = .Query ∧ takes services input p then some (p.name, foundText services input p.name) else none

/-- What the parameters add to the query. -/
def added (parameters : List (OpenApiParameter S)) : List (String × String) := parameters.filterMap (addedBy services input)

end

/-- The pair of a query parameter that is in the input. -/
def givenBy {S : Type} (values : String → Option String) (p : OpenApiParameter S) : Option (String × String) :=
  if p.kind = .Query then (values p.name).map fun value => (p.name, value) else none

/-- As a query has it. -/
def asQuery (queries : List (String × String)) : List (List Char × List Char) :=
  queries.map fun kvp => (kvp.1.toList, kvp.2.toList)

/-- The pairs as bytes. -/
def asBytes (queries : List (String × String)) : List (List UInt8 × List UInt8) :=
  queries.map fun kvp => (Url.utf8 kvp.1.toList, Url.utf8 kvp.2.toList)

/-- Nothing is thrown, the path is the same with what is found, what a parameter adds to the query is read as its pair if the
input has it and as nothing otherwise, and the fragment begins in it only if the input has no other pair. -/
structure Carries {J S : Type} (services : OpenApiServices J S) (values : String → Option String) (input : J)
    (template : List Segment) (parameters : List (OpenApiParameter S)) : Prop where
  finds : ∀ p ∈ used parameters, ∃ token, services.selectToken input p.name = .ok token
  takes : ∀ p ∈ parameters, p.kind = .Path → takes services input p
  path : rendered (fun name => some (foundText services input name)) template = rendered values template
  query : ∀ p ∈ parameters, Url.queryPairs (Url.join (asQuery (addedBy services input p).toList)) =
    asBytes (givenBy values p).toList
  fragment : ∀ p ∈ parameters, ∀ q ∈ parameters, p.name ≠ q.name → ∀ kvp, addedBy services input p = some kvp →
    (givenBy values q).isSome → '#' ∉ Url.joined (kvp.1.toList, kvp.2.toList)

section
variable {J S : Type} {services : OpenApiServices J S} {values : String → Option String} {input : J}
  {parameters ps : List (OpenApiParameter S)} {template : List Segment}

/-- Fewer parameters, fewer of them used. -/
theorem used_subset (among : Among ps parameters) : used ps ⊆ used parameters := by
  intro p member
  obtain ⟨inside, kind⟩ := List.mem_filter.mp member
  exact List.mem_filter.mpr ⟨among.subperm.subset inside, kind⟩

/-- Some of the parameters of an input of strings are parameters of one. -/
theorem StringInput.among (right : StringInput services values input parameters) (among : Among ps parameters) :
    StringInput services values input ps where
  object := right.object
  toText := right.toText
  properties p member := right.properties p (used_subset among member)
  accepted p member := right.accepted p (used_subset among member)
  required p member := right.required p (among.subperm.subset member)
  distinct := by
    obtain ⟨l, perm, sublist⟩ := among.subperm
    have less : ((used l).map (·.name)).Sublist ((used parameters).map (·.name)) := (sublist.filter _).map _
    exact ((perm.filter _).map _).nodup_iff.mp (right.distinct.sublist less)

/-- A template of all the parameters is one of those with the same paths. -/
theorem IsTemplate.among (right : IsTemplate template parameters) (among : Among ps parameters) : IsTemplate template ps where
  wellFormed := right.wellFormed
  path := right.path
  expressions name := by
    rw [right.expressions]
    constructor
    · rintro ⟨p, member, path, named⟩
      exact ⟨p, among.path p member path, path, named⟩
    · rintro ⟨p, member, is⟩
      exact ⟨p, among.subperm.subset member, is⟩

theorem Among.of_perm (perm : ps.Perm parameters) : Among ps parameters :=
  ⟨perm.subperm, fun _ member _ => perm.mem_iff.mpr member⟩

/-! ### The loop -/

/-- What the parameters make of one segment. -/
def filled (services : OpenApiServices J S) (input : J) (parameters : List (OpenApiParameter S)) (s : Segment) : Segment :=
  parameters.foldl (fun s p =>
    if p.kind = .Path ∧ takes services input p then s.fill p.name.toList (Url.encode (foundText services input p.name).toList)
    else s) s

/-- Braces are encoded. -/
theorem noBrace_encode (text : List Char) : NoBrace (Url.encode text) := by
  constructor <;> intro member <;> rcases Url.mem_encode member with safe | same | same
  all_goals first | exact absurd safe (by decide) | exact absurd same (by decide)

theorem takes_iff {p : OpenApiParameter S} :
    takes services input p ↔ services.validate p.schema (found services input p.name) = [] := List.isEmpty_iff

/-- What is done for one parameter, if nothing is thrown. -/
theorem addParameter_eq (object : services.type input = .Object) {p : OpenApiParameter S} {token : Option J}
    (finds : services.selectToken input p.name = .ok token) (target : Target) :
    addParameter services input target p =
      if takes services input p then target.put p (foundText services input p.name)
      else .ok { target with
        validationErrors := target.validationErrors ++ services.validate p.schema (found services input p.name) } := by
  have value : token.getD (services.ofString "") = found services input p.name := by rw [found, finds]
  unfold addParameter
  rw [finds]
  simp only [Except.map, Except.mapError, bind, Except.bind, value, object]
  by_cases accepted : takes services input p
  · rw [if_neg (not_not_intro (takes_iff.mp accepted)), if_pos accepted, foundText]
  · rw [if_pos (mt takes_iff.mpr accepted), if_neg accepted]
    rfl

/-- If the loop comes to its end, nothing was thrown for a name. -/
theorem finds_of_foldlM {target last : Target} (done : ps.foldlM (addParameter services input) target = .ok last) :
    ∀ p ∈ ps, ∃ token, services.selectToken input p.name = .ok token := by
  induction ps generalizing target with
  | nil => exact fun p member => (by cases member)
  | cons p ps ih =>
    rw [List.foldlM_cons] at done
    obtain ⟨next, here, later⟩ := Method.except_bind_eq_ok done
    refine List.forall_mem_cons.mpr ⟨?_, ih later⟩
    cases finds : services.selectToken input p.name with
    | error message =>
      unfold addParameter at here
      rw [finds] at here
      cases here
    | ok token => exact ⟨token, rfl⟩

theorem mem_of_used {p : OpenApiParameter S} (member : p ∈ used ps) : p ∈ ps := (List.mem_filter.mp member).1

theorem kind_of_used {p : OpenApiParameter S} (member : p ∈ used ps) : p.kind = .Path ∨ p.kind = .Query := by
  simpa using (List.mem_filter.mp member).2

/-- Path and query parameters are used. -/
theorem mem_used {p : OpenApiParameter S} (member : p ∈ ps) (kind : p.kind = .Path ∨ p.kind = .Query) : p ∈ used ps :=
  List.mem_filter.mpr ⟨member, decide_eq_true kind⟩

/-- A placeholder is filled by its first parameter that is taken. -/
theorem filled_cons {p : OpenApiParameter S} (s : Segment) :
    filled services input (p :: ps) s = filled services input ps (if p.kind = .Path ∧ takes services input p then
      s.fill p.name.toList (Url.encode (foundText services input p.name).toList) else s) := rfl

theorem added_cons (p : OpenApiParameter S) (ps : List (OpenApiParameter S)) :
    added services input (p :: ps) = (addedBy services input p).toList ++ added services input ps := by
  rw [added, List.filterMap_cons, added]
  cases addedBy services input p <;> rfl

/-- The loop fills the placeholders, and adds to the query. -/
theorem foldlM_addParameter (object : services.type input = .Object) :
    ∀ (ps : List (OpenApiParameter S)) (template : List Segment) (queries : List (String × String)) (errors : List String),
      (∀ p ∈ ps, ∃ token, services.selectToken input p.name = .ok token) → (∀ p ∈ ps, p.kind = .Path ∨ p.kind = .Query) →
      (∀ p ∈ ps, p.kind = .Path → '}' ∉ p.name.toList) → (queries.map (·.1) ++ ps.map (·.name)).Nodup →
      (∀ s ∈ template, s.WellFormed) →
      ∃ errors', ps.foldlM (addParameter services input) ⟨String.ofList (text template), queries, errors⟩ =
        .ok ⟨String.ofList (text (template.map (filled services input ps))), queries ++ added services input ps, errors'⟩ := by
  intro ps
  induction ps with
  | nil =>
    intro template queries errors _ _ _ _ _
    have same : template.map (filled services input ([] : List (OpenApiParameter S))) = template := List.map_id' template
    exact ⟨errors, by rw [same, List.foldlM_nil]; simp [added, pure, Except.pure]⟩
  | cons p ps ih =>
    intro template queries errors finds kinds noClose distinct wellFormed
    obtain ⟨⟨token, here⟩, finds⟩ := List.forall_mem_cons.mp finds
    obtain ⟨kind, kinds⟩ := List.forall_mem_cons.mp kinds
    obtain ⟨noClose, noClose'⟩ := List.forall_mem_cons.mp noClose
    have rest : (queries.map (·.1) ++ ps.map (·.name)).Nodup :=
      distinct.sublist (List.Sublist.append_left (List.sublist_cons_self _ _) _)
    have unfilled (change : ¬ (p.kind = .Path ∧ takes services input p)) :
        template.map (filled services input (p :: ps)) = template.map (filled services input ps) :=
      List.map_congr_left fun s _ => by rw [filled_cons, if_neg change]
    have unadded (change : ¬ (p.kind = .Query ∧ takes services input p)) :
        added services input (p :: ps) = added services input ps := by
      rw [added_cons, addedBy, if_neg change, Option.toList_none, List.nil_append]
    rw [List.foldlM_cons, addParameter_eq object here]
    by_cases accepted : takes services input p
    · rw [if_pos accepted]
      rcases kind with path | query
      · have notQuery : ¬ (p.kind = .Query ∧ takes services input p) := by simp [path]
        have put : (⟨String.ofList (text template), queries, errors⟩ : Target).put p (foundText services input p.name) =
            .ok ⟨String.ofList (text (template.map fun s => s.fill p.name.toList
              (Url.encode (foundText services input p.name).toList))), queries, errors⟩ := by
          have replaced := replaceAll_text (noClose path) wellFormed (Url.encode (foundText services input p.name).toList)
          have placeholder : ("\x7b" ++ p.name ++ "\x7d").toList = braced p.name.toList := by
            simp [braced, String.toList_append]
          simp only [Target.put, path, urlEncode, placeholder, String.toList_ofList, replaced]
        obtain ⟨errors', done⟩ := ih _ queries errors finds kinds noClose' rest
          (wellFormed_fill (noBrace_encode (foundText services input p.name).toList) wellFormed)
        rw [put, unadded notQuery]
        refine ⟨errors', done.trans ?_⟩
        have same : (template.map fun s => s.fill p.name.toList (Url.encode (foundText services input p.name).toList)).map
            (filled services input ps) = template.map (filled services input (p :: ps)) := by
          rw [List.map_map]
          exact List.map_congr_left fun s _ => by rw [filled_cons, if_pos ⟨path, accepted⟩]; rfl
        rw [same]
      · have notPath : ¬ (p.kind = .Path ∧ takes services input p) := by simp [query]
        have new : p.name ∉ queries.map (·.1) := fun known =>
          (List.nodup_append.mp distinct).2.2 _ known _ List.mem_cons_self rfl
        have put : (⟨String.ofList (text template), queries, errors⟩ : Target).put p (foundText services input p.name) =
            .ok ⟨String.ofList (text template), queries ++ [(p.name, foundText services input p.name)], errors⟩ := by
          simp only [Target.put, query, if_neg new]
        have distinct' : ((queries ++ [(p.name, foundText services input p.name)]).map (·.1) ++ ps.map (·.name)).Nodup := by
          simpa using distinct
        obtain ⟨errors', done⟩ := ih template _ errors finds kinds noClose' distinct' wellFormed
        rw [put, unfilled notPath, added_cons, addedBy, if_pos ⟨query, accepted⟩]
        refine ⟨errors', done.trans ?_⟩
        rw [List.append_assoc, Option.toList_some]
    · rw [if_neg accepted, unfilled fun change => accepted change.2, unadded fun change => accepted change.2]
      exact ih template queries _ finds kinds noClose' rest wellFormed

/-- Literal text stays. -/
theorem filled_literal (text : List Char) : filled services input ps (.literal text) = .literal text := by
  induction ps with
  | nil => rfl
  | cons p ps ih =>
    rw [filled_cons]
    split
    · exact ih
    · exact ih

/-- A placeholder with a parameter is filled with its encoded text. -/
theorem filled_placeholder {name : List Char} (takes : ∀ p ∈ ps, p.kind = .Path → takes services input p)
    (expressed : ∃ p ∈ ps, p.kind = .Path ∧ p.name.toList = name) :
    filled services input ps (.placeholder name) =
      .literal (Url.encode (foundText services input (String.ofList name)).toList) := by
  induction ps with
  | nil =>
    obtain ⟨p, member, -⟩ := expressed
    cases member
  | cons p ps ih =>
    rw [filled_cons]
    obtain ⟨taken, takes⟩ := List.forall_mem_cons.mp takes
    by_cases here : p.kind = .Path ∧ p.name.toList = name
    · obtain ⟨path, rfl⟩ := here
      rw [if_pos ⟨path, taken path⟩, Segment.fill, if_pos rfl, filled_literal, String.ofList_toList]
    · have same : (if p.kind = .Path ∧ OpenAPIParser.takes services input p then
          (Segment.placeholder name).fill p.name.toList (Url.encode (foundText services input p.name).toList)
          else .placeholder name) = .placeholder name := by
        split
        next path => rw [Segment.fill, if_neg fun named => here ⟨path.1, named.symm⟩]
        next => rfl
      rw [same]
      obtain ⟨q, member, is⟩ := expressed
      rcases List.mem_cons.mp member with rfl | later
      · exact absurd is here
      · exact ih takes ⟨q, later, is⟩

/-- A placeholder becomes an encoded text, if it does not stay. -/
theorem filled_cases {name literal : List Char} (filled : filled services input ps (.placeholder name) = .literal literal) :
    ∃ value, literal = Url.encode value := by
  induction ps with
  | nil => cases filled
  | cons p ps ih =>
    rw [filled_cons] at filled
    split at filled
    next =>
      rw [Segment.fill] at filled
      split at filled
      · rw [filled_literal] at filled
        exact ⟨_, (Segment.literal.inj filled).symm⟩
      · exact ih filled
    next => exact ih filled

/-- The placeholder of a parameter that is not taken stays. -/
theorem filled_untaken {name : List Char}
    (untaken : ∀ p ∈ ps, p.kind = .Path → p.name.toList = name → takes services input p = false) :
    filled services input ps (.placeholder name) = .placeholder name := by
  induction ps with
  | nil => rfl
  | cons p ps ih =>
    obtain ⟨first, untaken⟩ := List.forall_mem_cons.mp untaken
    rw [filled_cons]
    split
    next is =>
      rw [Segment.fill, if_neg, ih untaken]
      intro named
      exact absurd is.2 (by simp [first is.1 named.symm])
    next => exact ih untaken

/-- All placeholders are filled. -/
theorem text_filled (isTemplate : IsTemplate template parameters)
    (takes : ∀ p ∈ parameters, p.kind = .Path → takes services input p) :
    text (template.map (filled services input (used parameters))) =
      rendered (fun name => some (foundText services input name)) template := by
  rw [text, List.flatMap_map, rendered]
  refine List.flatMap_congr fun s member => ?_
  cases s with
  | literal text => rw [filled_literal]; rfl
  | placeholder name =>
    obtain ⟨p, inside, path, named⟩ := (isTemplate.expressions name).mp member
    rw [filled_placeholder (fun p member => takes p (mem_of_used member)) ⟨p, mem_used inside (.inl path), path, named⟩]
    rfl

/-- A rendered template has no question mark. -/
theorem not_mem_rendered (isTemplate : IsTemplate template parameters) : '?' ∉ rendered values template := by
  intro member
  obtain ⟨s, inside, there⟩ := List.mem_flatMap.mp member
  cases s with
  | literal text => exact (isTemplate.path text inside).1 there
  | placeholder name =>
    rcases Url.mem_encode there with safe | same | same
    · exact absurd safe (by decide)
    · exact absurd same (by decide)
    · exact absurd same (by decide)

/-- A rendered template has no brace. -/
theorem noOpen_rendered (isTemplate : IsTemplate template parameters) : '{' ∉ rendered values template := by
  intro member
  obtain ⟨s, inside, there⟩ := List.mem_flatMap.mp member
  cases s with
  | literal text => exact (isTemplate.wellFormed _ inside).1 there
  | placeholder name => exact (noBrace_encode _).1 there

/-- A placeholder that stays is seen in the path. -/
theorem mem_takeWhile_text {template : List Segment} {name : List Char} (member : Segment.placeholder name ∈ template)
    (path : ∀ text, Segment.literal text ∈ template → '?' ∉ text) (rest : List Char) :
    '{' ∈ (text template ++ rest).takeWhile (· ≠ '?') := by
  induction template with
  | nil => cases member
  | cons s template ih =>
    rw [text, List.flatMap_cons, List.append_assoc]
    cases s with
    | literal text =>
      have absent : ∀ c ∈ text, decide (c ≠ '?') = true := by
        intro c inside
        simp only [decide_eq_true_eq]
        rintro rfl
        exact path text List.mem_cons_self inside
      rw [Segment.text, List.takeWhile_append_of_pos absent]
      refine List.mem_append_right _ (ih ?_ fun text' later => path text' (List.mem_cons_of_mem _ later))
      exact (List.mem_cons.mp member).resolve_left (by simp)
    | placeholder name' => exact List.mem_cons_self

/-- What `string.Join` makes of the queries. -/
theorem toList_joinStrings (queries : List (String × String)) :
    (joinStrings "&" (queries.map fun kvp => kvp.1 ++ "=" ++ kvp.2)).toList =
      Url.join (queries.map fun kvp => (kvp.1.toList, kvp.2.toList)) := by
  have one (kvp : String × String) : (kvp.1 ++ "=" ++ kvp.2).toList = Url.joined (kvp.1.toList, kvp.2.toList) := by
    simp [Url.joined, String.toList_append]
  induction queries with
  | nil => rfl
  | cons kvp queries ih =>
    cases queries with
    | nil => exact one kvp
    | cons next queries =>
      simp only [List.map_cons, joinStrings, Url.join, String.toList_append, one] at ih ⊢
      rw [ih]
      simp

/-- What the parser builds of an input if nothing is thrown. -/
theorem buildHTTPTarget_eq (right : StringInput services values input parameters) (isTemplate : IsTemplate template parameters)
    (finds : ∀ p ∈ used parameters, ∃ token, services.selectToken input p.name = .ok token) :
    ∃ url errors, buildHTTPTarget services input (String.ofList (text template)) (some parameters) = .ok (url, errors) ∧
      url.toList = text (template.map (filled services input (used parameters))) ++
        if added services input (used parameters) = [] then []
        else '?' :: Url.join (asQuery (added services input (used parameters))) := by
  have noClose : ∀ p ∈ used parameters, p.kind = .Path → '}' ∉ p.name.toList := fun p member path =>
    (isTemplate.wellFormed (.placeholder p.name.toList)
      ((isTemplate.expressions _).mpr ⟨p, mem_of_used member, path, rfl⟩)).2
  obtain ⟨errors, done⟩ := foldlM_addParameter right.object (used parameters) template [] [] finds
    (fun _ => kind_of_used) noClose right.distinct isTemplate.wellFormed
  rw [List.nil_append] at done
  unfold buildHTTPTarget
  simp only [done, bind, Except.bind]
  cases queries : added services input (used parameters) with
  | nil => exact ⟨_, errors, rfl, by simp⟩
  | cons first others =>
    refine ⟨_, errors, rfl, ?_⟩
    rw [String.toList_append, String.toList_append, String.toList_ofList, List.append_assoc, toList_joinStrings, asQuery]
    simp

/-! ## When it is -/

/-- Unused parameters add nothing. -/
theorem added_used : added services input (used ps) = added services input ps := by
  rw [added, added, used, List.filterMap_filter]
  refine List.filterMap_congr fun p _ => ?_
  by_cases query : p.kind = .Query
  · simp [query]
  · simp [query, addedBy]

/-- The property of one operation: nothing is thrown, the path is that of the values, and the query is read as the pairs. -/
theorem buildsTarget_iff_parts (right : StringInput services values input parameters)
    (isTemplate : IsTemplate template parameters) :
    BuildsTarget services values input template parameters ↔
      (∀ p ∈ used parameters, ∃ token, services.selectToken input p.name = .ok token) ∧
        (∀ p ∈ parameters, p.kind = .Path → takes services input p) ∧
        rendered (fun name => some (foundText services input name)) template = rendered values template ∧
        Url.queryPairs (Url.join (asQuery (added services input parameters))) = asBytes (given values parameters) := by
  -- Where the path is filled, the parts of the URL are seen.
  have parts {url : String} (takes : ∀ p ∈ parameters, p.kind = .Path → takes services input p)
      (whole : url.toList = text (template.map (filled services input (used parameters))) ++
        if added services input (used parameters) = [] then []
        else '?' :: Url.join (asQuery (added services input (used parameters)))) :
      pathOf url = rendered (fun name => some (foundText services input name)) template ∧
        queryOf url = Url.join (asQuery (added services input parameters)) := by
    have absent : ∀ c ∈ rendered (fun name => some (foundText services input name)) template, decide (c ≠ '?') = true := by
      intro c member
      simp only [decide_eq_true_eq]
      rintro rfl
      exact not_mem_rendered isTemplate member
    rw [text_filled isTemplate takes, added_used] at whole
    rw [pathOf, queryOf, whole, List.takeWhile_append_of_pos absent, List.dropWhile_append_of_pos absent]
    split_ifs with none
    · rw [none]
      exact ⟨List.append_nil _, rfl⟩
    · simp
  constructor
  · rintro ⟨url, errors, built, path, query⟩
    have finds : ∀ p ∈ used parameters, ∃ token, services.selectToken input p.name = .ok token := by
      unfold buildHTTPTarget at built
      obtain ⟨target, done, -⟩ := Method.except_bind_eq_ok built
      exact finds_of_foldlM done
    obtain ⟨url', errors', built', whole⟩ := buildHTTPTarget_eq right isTemplate finds
    obtain ⟨rfl, -⟩ := Prod.mk.inj (Except.ok.inj (built.symm.trans built'))
    have taken : ∀ p ∈ parameters, p.kind = .Path → takes services input p := by
      intro p member isPath
      by_contra untaken
      have stays : filled services input (used parameters) (.placeholder p.name.toList) = .placeholder p.name.toList := by
        refine filled_untaken fun q inside _ named => ?_
        obtain rfl : q = p := List.inj_on_of_nodup_map right.distinct inside (mem_used member (.inl isPath))
          (String.toList_inj.mp named)
        simpa using untaken
      have seen : Segment.placeholder p.name.toList ∈ template.map (filled services input (used parameters)) :=
        List.mem_map.mpr ⟨_, (isTemplate.expressions _).mpr ⟨p, member, isPath, rfl⟩, stays⟩
      have noOpen : '{' ∉ rendered values template := noOpen_rendered isTemplate
      refine noOpen ?_
      rw [← path, pathOf, whole]
      refine mem_takeWhile_text seen (fun text inside there => ?_) _
      obtain ⟨s, inside', same⟩ := List.mem_map.mp inside
      cases s with
      | literal text' =>
        rw [filled_literal] at same
        obtain rfl := Segment.literal.inj same
        exact (isTemplate.path text' inside').1 there
      | placeholder name =>
        obtain ⟨c, encoded⟩ := filled_cases same
        rw [encoded] at there
        rcases Url.mem_encode there with safe | same | same
        · exact absurd safe (by decide)
        · exact absurd same (by decide)
        · exact absurd same (by decide)
    obtain ⟨path', query'⟩ := parts taken whole
    refine ⟨finds, taken, path'.symm.trans path, ?_⟩
    rw [← query', query]
    rfl
  · rintro ⟨finds, taken, path, query⟩
    obtain ⟨url, errors, built, whole⟩ := buildHTTPTarget_eq right isTemplate finds
    obtain ⟨path', query'⟩ := parts taken whole
    refine ⟨url, errors, built, path'.trans path, ?_⟩
    rw [query', query]
    rfl

theorem asBytes_eq (queries : List (String × String)) :
    asBytes queries = (asQuery queries).map fun p => (Url.utf8 p.1, Url.utf8 p.2) := by
  rw [asBytes, asQuery, List.map_map]
  rfl

theorem given_cons (p : OpenApiParameter S) (ps : List (OpenApiParameter S)) :
    given values (p :: ps) = (givenBy values p).toList ++ given values ps := by
  rw [given, List.filterMap_cons, given]
  cases same : givenBy values p <;> rw [givenBy] at same <;> rw [same] <;> rfl

/-- Only query parameters add to the query. -/
theorem kind_of_addedBy {p : OpenApiParameter S} {kvp : String × String} (adds : addedBy services input p = some kvp) :
    p.kind = .Query := (Option.ite_none_right_eq_some.mp adds).1.1

theorem kind_of_givenBy {p : OpenApiParameter S} (gives : (givenBy values p).isSome) : p.kind = .Query := by
  by_contra other
  simp [givenBy, other] at gives

/-! ### Any of the query parameters -/

/-- The parameters of the path, and these of the query. -/
def withPath (parameters ps : List (OpenApiParameter S)) : List (OpenApiParameter S) :=
  (parameters.filter fun p => p.kind = .Path) ++ ps

/-- The path parameters, and some of the query parameters. -/
theorem among_withPath (distinct : ((used parameters).map (·.name)).Nodup)
    (queries : ∀ p ∈ ps, p ∈ parameters ∧ p.kind = .Query) (once : (ps.map (·.name)).Nodup) :
    Among (withPath parameters ps) parameters := by
  have paths : (parameters.filter fun p => p.kind = .Path).Sublist (used parameters) := by
    refine List.monotone_filter_right _ fun p path => ?_
    simp only [decide_eq_true_eq] at path ⊢
    exact .inl path
  refine ⟨?_, fun p member path => List.mem_append_left _ (List.mem_filter.mpr ⟨member, decide_eq_true path⟩)⟩
  have inside : withPath parameters ps ⊆ used parameters := by
    intro p member
    rcases List.mem_append.mp member with path | query
    · exact paths.subset path
    · exact mem_used (queries p query).1 (.inr (queries p query).2)
  have nodup : (withPath parameters ps).Nodup := by
    refine List.nodup_append.mpr ⟨(List.Nodup.of_map _ distinct).sublist paths, List.Nodup.of_map _ once, ?_⟩
    rintro p path q query rfl
    have other := (queries p query).2
    rw [of_decide_eq_true (List.mem_filter.mp path).2] at other
    cases other
  exact (List.subperm_of_subset nodup inside).trans (List.filter_sublist.subperm)

theorem added_withPath : added services input (withPath parameters ps) = added services input ps := by
  have none : (parameters.filter fun p => p.kind = .Path).filterMap (addedBy services input) = [] := by
    refine List.filterMap_eq_nil_iff.mpr fun p member => ?_
    simp [addedBy, of_decide_eq_true (List.mem_filter.mp member).2]
  rw [added, withPath, List.filterMap_append, none, List.nil_append, added]

theorem given_withPath : given values (withPath parameters ps) = given values ps := by
  have none : given values (parameters.filter fun p => p.kind = .Path) = [] := by
    refine List.filterMap_eq_nil_iff.mpr fun p member => ?_
    simp [of_decide_eq_true (List.mem_filter.mp member).2]
  rw [withPath, given, List.filterMap_append]
  rw [given] at none
  rw [none, List.nil_append, given]

/-- What is added for some parameters is read as the pairs that are given, if it is for each of them. -/
theorem Carries.queryPairs (carries : Carries services values input template parameters) (among : ps ⊆ parameters)
    (distinct : ((used ps).map (·.name)).Nodup) :
    Url.queryPairs (Url.join (asQuery (added services input ps))) = asBytes (given values ps) := by
  induction ps with
  | nil => rfl
  | cons p ps ih =>
    have here := among List.mem_cons_self
    have later := ih (fun q member => among (List.mem_cons_of_mem _ member))
      (distinct.sublist (((List.sublist_cons_self p ps).filter _).map _))
    have alone := carries.query p here
    rw [added_cons, given_cons]
    cases adds : addedBy services input p with
    | none =>
      rw [adds] at alone
      have nothing : (givenBy values p).toList = [] := List.map_eq_nil_iff.mp alone.symm
      rw [Option.toList_none, List.nil_append, later, nothing, List.nil_append]
    | some kvp =>
      rw [adds, Option.toList_some, asQuery, List.map_singleton, Url.join] at alone
      rw [Option.toList_some, List.singleton_append, asQuery, List.map_cons, Url.queryPairs_join_cons, alone, asBytes, asBytes,
        List.map_append]
      congr 1
      split_ifs with hash
      · -- The fragment hides the others, and there are none.
        have nothing : given values ps = [] := by
          refine List.filterMap_eq_nil_iff.mpr fun q member => ?_
          by_contra gives
          have some : (givenBy values q).isSome := Option.isSome_iff_ne_none.mpr gives
          refine carries.fragment p here q (among (List.mem_cons_of_mem _ member)) ?_ kvp adds some hash
          have others : (p.name :: (used ps).map (·.name)).Nodup := by
            simpa [used, kind_of_addedBy adds] using distinct
          intro same
          refine (List.nodup_cons.mp others).1 (List.mem_map.mpr ⟨q, ?_, same.symm⟩)
          exact mem_used member (.inr (kind_of_givenBy some))
        rw [nothing]
        rfl
      · exact later

/-- The property of an operation and of those with fewer query parameters. -/
theorem buildsTarget_among_iff (right : StringInput services values input parameters)
    (isTemplate : IsTemplate template parameters) :
    (∀ ps, Among ps parameters → BuildsTarget services values input template ps) ↔
      Carries services values input template parameters := by
  have read {ps : List (OpenApiParameter S)} (among : Among ps parameters) :=
    buildsTarget_iff_parts (right.among among) (isTemplate.among among)
  constructor
  · intro builds
    have whole : Among parameters parameters := .of_perm (.refl _)
    obtain ⟨finds, takes, path, -⟩ := (read whole).mp (builds _ whole)
    have some {ps : List (OpenApiParameter S)} (queries : ∀ p ∈ ps, p ∈ parameters ∧ p.kind = .Query)
        (once : (ps.map (·.name)).Nodup) :
        Url.queryPairs (Url.join (asQuery (added services input ps))) = asBytes (given values ps) := by
      have among := among_withPath right.distinct queries once
      obtain ⟨-, -, -, query⟩ := (read among).mp (builds _ among)
      rwa [added_withPath, given_withPath] at query
    have alone : ∀ p ∈ parameters, Url.queryPairs (Url.join (asQuery (addedBy services input p).toList)) =
        asBytes (givenBy values p).toList := by
      intro p member
      by_cases query : p.kind = .Query
      · have one := @some [p] (by simp [member, query]) (by simp)
        rw [added_cons, given_cons] at one
        simpa [added, given] using one
      · simp only [addedBy, givenBy, query, false_and, if_false]
        rfl
    refine ⟨finds, takes, path, alone, ?_⟩
    intro p member q member' names kvp adds gives hash
    have two := @some [p, q] (by simp [member, member', kind_of_addedBy adds, kind_of_givenBy gives]) (by simp [names])
    have one := alone p member
    rw [adds, Option.toList_some, asQuery, List.map_singleton, Url.join] at one
    rw [added_cons, given_cons, given_cons, adds, Option.toList_some, List.singleton_append, asQuery, List.map_cons,
      Url.queryPairs_join_cons, if_pos hash, one, List.append_nil, asBytes, asBytes, List.map_append] at two
    have nothing := List.append_cancel_left ((List.append_nil _).trans two)
    obtain ⟨pair, gives⟩ := Option.isSome_iff_exists.mp gives
    simp [gives] at nothing
  · intro carries ps among
    refine (read among).mpr ⟨fun p member => carries.finds p (used_subset among member),
      fun p member => carries.takes p (among.subperm.subset member), carries.path, ?_⟩
    exact carries.queryPairs among.subperm.subset (right.among among).distinct

/-! ### Names of properties -/

/-- The text of a parameter of the input. -/
def valueOf (values : String → Option String) (p : OpenApiParameter S) : String := (values p.name).getD ""

/-- A query parameter that is not in the input, with a schema that accepts the empty string. -/
def Absent (services : OpenApiServices J S) (values : String → Option String) (p : OpenApiParameter S) : Prop :=
  p.kind = .Query ∧ values p.name = none ∧ services.validate p.schema (services.ofString "") = []

section
variable (right : StringInput services values input parameters) (agrees : Agrees services input parameters)
include right agrees

/-- What is found for a parameter is its value. -/
theorem found_of_agrees {p : OpenApiParameter S} (member : p ∈ used parameters) :
    found services input p.name = services.ofString (valueOf values p) := by
  rw [found, agrees p member, right.properties p member, valueOf]
  cases values p.name <;> rfl

/-- The text of what is found is the value. -/
theorem foundText_of_agrees {p : OpenApiParameter S} (member : p ∈ used parameters) :
    foundText services input p.name = valueOf values p := by
  rw [foundText, found_of_agrees right agrees member, right.toText]

/-- A parameter is taken if its value is valid. -/
theorem takes_of_agrees {p : OpenApiParameter S} (member : p ∈ used parameters) :
    takes services input p ↔ services.validate p.schema (services.ofString (valueOf values p)) = [] := by
  rw [takes_iff, found_of_agrees right agrees member]

/-- The target is built as it should be if its query gives back the pairs. -/
theorem buildsTarget_iff_queryPairs (isTemplate : IsTemplate template parameters) :
    BuildsTarget services values input template parameters ↔
      Url.queryPairs (Url.join (asQuery (added services input parameters))) =
        (asQuery (given values parameters)).map fun p => (Url.utf8 p.1, Url.utf8 p.2) := by
  have finds : ∀ p ∈ used parameters, ∃ token, services.selectToken input p.name = .ok token :=
    fun p member => ⟨_, agrees p member⟩
  have takes : ∀ p ∈ parameters, p.kind = .Path → takes services input p := by
    intro p member path
    have inside := mem_used member (.inl path)
    obtain ⟨value, present⟩ := Option.isSome_iff_exists.mp (right.required p member path)
    rw [takes_of_agrees right agrees inside, valueOf, present]
    exact right.accepted p inside value present
  have path : rendered (fun name => some (foundText services input name)) template = rendered values template := by
    refine List.flatMap_congr fun s member => ?_
    cases s with
    | literal text => rfl
    | placeholder name =>
      obtain ⟨p, inside, isPath, rfl⟩ := (isTemplate.expressions name).mp member
      have same := foundText_of_agrees right agrees (mem_used inside (.inl isPath))
      simp only [String.ofList_toList, same, Option.getD_some, valueOf]
  rw [buildsTarget_iff_parts right isTemplate, ← asBytes_eq]
  exact ⟨fun builds => builds.2.2.2, fun query => ⟨finds, takes, path, query⟩⟩

/-- Parameters that are in the input are added with their values. -/
theorem added_of_given (among : ∀ p ∈ ps, p ∈ parameters) (present : ∀ p ∈ ps, ¬ Absent services values p) :
    added services input ps = given values ps := by
  refine List.filterMap_congr fun p member => ?_
  by_cases query : p.kind = .Query
  · have inside : p ∈ used parameters := mem_used (among p member) (.inr query)
    have taken := takes_of_agrees right agrees inside
    have text := foundText_of_agrees right agrees inside
    cases value : values p.name with
    | none =>
      have refused : services.validate p.schema (services.ofString "") ≠ [] := fun accepted =>
        present p member ⟨query, value, accepted⟩
      simp [addedBy, query, taken, valueOf, value, refused]
    | some value' => simp [addedBy, query, taken, text, valueOf, value, right.accepted p inside value' value]
  · simp [addedBy, query]

/-- A missing value adds an empty pair. -/
theorem added_absent {p : OpenApiParameter S} (member : p ∈ parameters) (absent : Absent services values p) :
    added services input (p :: ps) = (p.name, "") :: added services input ps := by
  have inside := mem_used member (.inr absent.1)
  have text : valueOf values p = "" := by rw [valueOf, absent.2.1]; rfl
  have taken : takes services input p := by
    rw [takes_of_agrees right agrees inside, text]
    exact absent.2.2
  rw [added_cons, addedBy, if_pos ⟨absent.1, taken⟩, foundText_of_agrees right agrees inside, text]
  rfl

end

theorem added_append (ps qs : List (OpenApiParameter S)) :
    added services input (ps ++ qs) = added services input ps ++ added services input qs := List.filterMap_append

theorem given_append (ps qs : List (OpenApiParameter S)) : given values (ps ++ qs) = given values ps ++ given values qs :=
  List.filterMap_append

/-- The pairs that are in the input are those of the query parameters that have a value. -/
theorem mem_given {name value : String} :
    (name, value) ∈ given values ps ↔ ∃ p ∈ ps, p.kind = .Query ∧ p.name = name ∧ values p.name = some value := by
  refine List.mem_filterMap.trans (exists_congr fun p => and_congr_right fun _ => ?_)
  by_cases query : p.kind = .Query
  · rw [if_pos query, Option.map_eq_some_iff]
    constructor
    · rintro ⟨_, value', same⟩
      cases same
      exact ⟨query, rfl, value'⟩
    · rintro ⟨-, rfl, value'⟩
      exact ⟨value, value', rfl⟩
  · simp [query]

/-- The query parameters that are in the input. -/
def isGiven (values : String → Option String) (p : OpenApiParameter S) : Bool := p.kind = .Query && (values p.name).isSome

/-- Parameters without a value give nothing. -/
theorem given_of_not_isGiven (missing : ∀ p ∈ ps, isGiven values p = false) : given values ps = [] := by
  refine List.filterMap_eq_nil_iff.mpr fun p member => ?_
  have not := missing p member
  by_cases query : p.kind = .Query
  · simpa [isGiven, query] using not
  · simp [query]

theorem not_absent_of_isGiven {p : OpenApiParameter S} (is : isGiven values p) : ¬ Absent services values p := by
  rintro ⟨query, none, -⟩
  simp [isGiven, none] at is

/-- A name that opens the fragment hides what comes after it. -/
theorem queryPairs_of_hidden {name : List Char} (hidden : Url.queryPairs (Url.joined (name, [])) = [])
    (pairs : List (List Char × List Char)) : Url.queryPairs (Url.join ((name, []) :: pairs)) = [] := by
  have hash : '#' ∈ Url.joined (name, []) := by
    by_contra noHash
    exact Url.queryPairs_joined_ne_nil noHash hidden
  rw [Url.queryPairs_join_cons, hidden, if_pos hash]
  rfl

/-- Without a pair in the input the query is read as empty, if the fragment opens in the first parameter that is added. -/
theorem queryPairs_added_of_nothing (right : StringInput services values input parameters)
    (agrees : Agrees services input parameters) (inside : ∀ p ∈ ps, p ∈ parameters)
    (nothing : ∀ p ∈ parameters, isGiven values p = false)
    (hidden : ∀ p ∈ parameters, Absent services values p → Url.queryPairs (Url.joined (p.name.toList, [])) = []) :
    Url.queryPairs (Url.join (asQuery (added services input ps))) = [] := by
  cases queries : added services input ps with
  | nil => rfl
  | cons kvp others =>
    have first : kvp ∈ added services input ps := queries ▸ List.mem_cons_self
    obtain ⟨p, member, is⟩ := List.mem_filterMap.mp first
    obtain ⟨⟨query, taken⟩, rfl⟩ : (p.kind = .Query ∧ takes services input p) ∧ _ = kvp := by
      simpa only [addedBy, Option.ite_none_right_eq_some, Option.some.injEq] using is
    have isUsed := mem_used (inside p member) (.inr query)
    have missing : values p.name = none := by simpa [isGiven, query] using nothing p (inside p member)
    have empty : valueOf values p = "" := by rw [valueOf, missing]; rfl
    rw [takes_of_agrees right agrees isUsed, empty] at taken
    rw [foundText_of_agrees right agrees isUsed, empty, asQuery, List.map_cons]
    exact queryPairs_of_hidden (hidden p (inside p member) ⟨query, missing, taken⟩) _

/-- Where the names of the parameters are those of properties for `SelectToken` too: nothing in the names and values of the
query means something, and no parameter is added that the input does not have. -/
theorem buildsTarget_perm_iff (right : StringInput services values input parameters)
    (agrees : Agrees services input parameters) (isTemplate : IsTemplate template parameters) :
    (∀ ps, ps.Perm parameters → BuildsTarget services values input template ps) ↔
      (∀ p ∈ parameters, p.kind = .Query → ∀ value, values p.name = some value → Url.Clean p.name.toList value.toList) ∧
        ((∀ p ∈ parameters, ¬ Absent services values p) ∨
          (∀ p ∈ parameters, isGiven values p = false) ∧
            ∀ p ∈ parameters, Absent services values p → Url.queryPairs (Url.joined (p.name.toList, [])) = []) := by
  have read {ps : List (OpenApiParameter S)} (perm : ps.Perm parameters) :=
    buildsTarget_iff_queryPairs (right.among (.of_perm perm))
      (fun p member => agrees p (used_subset (.of_perm perm) member)) (isTemplate.among (.of_perm perm))
  constructor
  · intro builds
    have split := List.filter_append_perm (isGiven values) parameters
    generalize inside : parameters.filter (isGiven values) = present at split
    generalize outside : (parameters.filter fun p => !isGiven values p) = missing at split
    have isPresent : ∀ p ∈ present, p ∈ parameters ∧ isGiven values p := fun p member =>
      List.mem_filter.mp (inside ▸ member)
    have isMissing : ∀ p ∈ missing, isGiven values p = false := fun p member => by
      simpa using (List.mem_filter.mp (outside ▸ member : p ∈ parameters.filter fun p => !isGiven values p)).2
    have same : added services input present = given values present := added_of_given right agrees (fun p member => (isPresent p member).1)
      fun p member => not_absent_of_isGiven (isPresent p member).2
    have first {others : List (OpenApiParameter S)} (perm : others.Perm missing) :
        (∀ kvp ∈ asQuery (given values present), Url.Clean kvp.1 kvp.2) ∧
          Url.queryPairs (Url.join (asQuery (added services input others))) = [] := by
      have order := (perm.append_left present).trans split
      have here := (read order).mp (builds _ order)
      rw [added_append, given_append, given_of_not_isGiven fun p member => isMissing p (perm.mem_iff.mp member), same,
        List.append_nil, asQuery, List.map_append] at here
      exact Url.queryPairs_join_append_iff.mp (here.trans (List.append_nil _).symm)
    have single {q : OpenApiParameter S} (member : q ∈ parameters) (absent : Absent services values q) :
        Url.queryPairs (Url.joined (q.name.toList, [])) = [] ∧ given values present = [] := by
      have notGiven : isGiven values q = false := by
        by_contra is
        exact not_absent_of_isGiven (by simpa using is) absent
      have among : q ∈ missing := outside ▸ List.mem_filter.mpr ⟨member, by simp [notGiven]⟩
      obtain ⟨before, after, parted⟩ := List.append_of_mem among
      have perm : (q :: (before ++ after)).Perm missing := parted ▸ List.perm_middle.symm
      have empty := (first perm).2
      rw [added_absent right agrees member absent, asQuery, List.map_cons, Url.queryPairs_join_cons] at empty
      have hidden := (List.append_eq_nil_iff.mp empty).1
      have order : ((q :: (before ++ after)) ++ present).Perm parameters :=
        List.perm_append_comm.trans ((perm.append_left present).trans split)
      have here := (read order).mp (builds _ order)
      rw [added_append, added_absent right agrees member absent, given_append,
        given_of_not_isGiven fun p member => isMissing p (perm.mem_iff.mp member), List.nil_append, asQuery, List.cons_append,
        List.map_cons, String.toList_empty, queryPairs_of_hidden hidden] at here
      exact ⟨hidden, by simpa [asQuery] using here.symm⟩
    refine ⟨fun p member query value given' => ?_, ?_⟩
    · have here : p ∈ present := inside ▸ List.mem_filter.mpr ⟨member, by simp [isGiven, query, given']⟩
      have kvp : (p.name.toList, value.toList) ∈ asQuery (given values present) :=
        List.mem_map.mpr ⟨(p.name, value), mem_given.mpr ⟨p, here, query, rfl, given'⟩, rfl⟩
      exact (first (.refl _)).1 _ kvp
    · by_cases all : ∀ p ∈ parameters, ¬ Absent services values p
      · exact .inl all
      · obtain ⟨q, absent⟩ := not_forall.mp all
        obtain ⟨member, absent⟩ := not_forall.mp absent
        have none := (single member (not_not.mp absent)).2
        refine .inr ⟨fun p inside' => ?_, fun p inside' absent' => (single inside' absent').1⟩
        by_contra is
        have is' : isGiven values p := by simpa using is
        have here : p ∈ present := inside ▸ List.mem_filter.mpr ⟨inside', is'⟩
        obtain ⟨query, some⟩ := Bool.and_eq_true_iff.mp is'
        obtain ⟨value, value'⟩ := Option.isSome_iff_exists.mp some
        have kvp : (p.name, value) ∈ given values present := mem_given.mpr ⟨p, here, by simpa using query, rfl, value'⟩
        rw [none] at kvp
        cases kvp
  · rintro ⟨cleans, complete⟩ ps perm
    rw [read perm]
    rcases complete with all | ⟨nothing, hidden⟩
    · rw [added_of_given right agrees (fun p member => perm.mem_iff.mp member) fun p member => all p (perm.mem_iff.mp member)]
      have joined := (@Url.queryPairs_join_append_iff (asQuery (given values ps)) [] []).mpr ⟨?_, by rfl⟩
      · simpa using joined
      · intro kvp member
        obtain ⟨pair, inside, rfl⟩ := List.mem_map.mp member
        obtain ⟨p, inside', query, name, value⟩ := mem_given.mp inside
        rw [← name]
        exact cleans p (perm.mem_iff.mp inside') query _ value
    · have nothing' : given values ps = [] := given_of_not_isGiven fun p member => nothing p (perm.mem_iff.mp member)
      rw [nothing']
      exact queryPairs_added_of_nothing right agrees (fun p member => perm.mem_iff.mp member) nothing hidden

/-- **The URL of a call has the values it was given, for each choice of the query parameters,** exactly if `SelectToken` finds
for the path and for each pair of the query what is read as the value. Where it finds the properties with the names of the
parameters, the URL has the values in any order exactly if nothing in the names and values of its query means something, and no
parameter is added that the input does not have. -/
theorem buildsTarget_iff (right : StringInput services values input parameters)
    (isTemplate : IsTemplate template parameters) :
    ((∀ ps, Among ps parameters → BuildsTarget services values input template ps) ↔
        Carries services values input template parameters) ∧
      (Agrees services input parameters → ((∀ ps, ps.Perm parameters → BuildsTarget services values input template ps) ↔
        (∀ p ∈ parameters, p.kind = .Query → ∀ value, values p.name = some value → Url.Clean p.name.toList value.toList) ∧
          ((∀ p ∈ parameters, ¬ Absent services values p) ∨
            (∀ p ∈ parameters, isGiven values p = false) ∧
              ∀ p ∈ parameters, Absent services values p → Url.queryPairs (Url.joined (p.name.toList, [])) = []))) :=
  ⟨buildsTarget_among_iff right isTemplate, fun agrees => buildsTarget_perm_iff right agrees isTemplate⟩

end

/-! ## One placeholder and one query parameter -/

/-- Tokens that are their texts; the input has these values, and everything is accepted. -/
def plainTokens (values : String → Option String) : OpenApiServices String Unit where
  type := fun _ => .Object
  toText := id
  ofString := id
  property := fun _ name => values name
  selectToken := fun _ name => .ok (values name)
  validate := fun _ _ => []

/-- A pet with a filter. -/
def petValues (filter : String) : String → Option String
  | "id" => some "7"
  | "filter" => some filter
  | _ => none

/-- A parameter in the path, and one in the query. -/
def petParameters : List (OpenApiParameter Unit) := [⟨"id", .Path, ()⟩, ⟨"filter", .Query, ()⟩]

/-- A path with a placeholder. -/
def petTemplate : List Segment := [.literal "https://host/pets/".toList, .placeholder "id".toList]

/-- The template of the example. -/
theorem isTemplate_pets : IsTemplate petTemplate petParameters where
  wellFormed s member := by
    rcases List.mem_pair.mp member with rfl | rfl
    · exact ⟨by decide, by decide⟩
    · exact ⟨by decide, by decide⟩
  path text member := by
    rcases List.mem_pair.mp member with same | same
    · obtain rfl := Segment.literal.inj same
      exact ⟨by decide, by decide⟩
    · cases same
  expressions name := by
    constructor
    · intro member
      rcases List.mem_pair.mp member with same | same
      · cases same
      · exact ⟨⟨"id", .Path, ()⟩, .head _, rfl, (Segment.placeholder.inj same).symm⟩
    · rintro ⟨p, member, path, rfl⟩
      rcases List.mem_pair.mp member with rfl | rfl
      · exact .tail _ (.head _)
      · cases path

/-- The input of the example has strings only. -/
theorem stringInput_pets (filter : String) :
    StringInput (plainTokens (petValues filter)) (petValues filter) "input" petParameters where
  object := rfl
  toText _ := rfl
  properties _ _ := Option.map_id_apply.symm
  accepted _ _ _ _ := rfl
  required p member path := by
    rcases List.mem_pair.mp member with rfl | rfl
    · rfl
    · cases path
  distinct := by decide

/-- A value that means nothing in a query. -/
theorem buildsTarget_cats : BuildsTarget (plainTokens (petValues "cats")) (petValues "cats") "input" petTemplate petParameters := by
  have agrees : Agrees (plainTokens (petValues "cats")) "input" petParameters := fun _ _ => rfl
  refine ((buildsTarget_iff (stringInput_pets "cats") isTemplate_pets).2 agrees).mpr ⟨fun p member query value given => ?_,
    .inl fun p member => ?_⟩ _ (.refl _)
  · rcases List.mem_pair.mp member with rfl | rfl
    · cases query
    · obtain rfl : "cats" = value := Option.some.inj given
      exact ⟨by decide, by decide, by decide, by decide, by decide, by decide, by decide⟩
  · rintro ⟨query, none, -⟩
    rcases List.mem_pair.mp member with rfl | rfl
    · cases query
    · cases none

/-- A value that is read as two pairs. -/
theorem not_buildsTarget_admin :
    buildHTTPTarget (plainTokens (petValues "a&admin=true")) "input" (String.ofList (text petTemplate)) (some petParameters) =
        .ok ("https://host/pets/7?filter=a&admin=true", []) ∧
      ¬ BuildsTarget (plainTokens (petValues "a&admin=true")) (petValues "a&admin=true") "input" petTemplate petParameters := by
  have built : buildHTTPTarget (plainTokens (petValues "a&admin=true")) "input" (String.ofList (text petTemplate))
      (some petParameters) = .ok ("https://host/pets/7?filter=a&admin=true", []) := by decide
  refine ⟨built, ?_⟩
  rintro ⟨url, errors, built', -, read⟩
  obtain ⟨rfl, -⟩ := Prod.mk.inj (Except.ok.inj (built.symm.trans built'))
  exact absurd read (by decide)

end OpenAPIParser

end FaasNet.StateMachine
