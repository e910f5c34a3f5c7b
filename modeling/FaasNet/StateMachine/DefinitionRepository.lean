import Mathlib.Data.List.Find
import Mathlib.Data.List.Induction
import FaasNet.Common.ConcurrentBag
import FaasNet.Lib.Ranked
import FaasNet.Lib.Versions
import FaasNet.StateMachine.Definitions

/-!
# Versions of a definition

`InMemoryStateMachineDefinitionRepository`, and the commands and messages that change what it holds. The bag keeps
references, and a query gives the objects themselves, so a change of one of them is there before `Update` is called.
`Update` takes out the first object with the `Id` of its argument, which all versions of a definition share.
-/

namespace FaasNet.StateMachine

open FaasNet.Lib FaasNet.Common

/-! ## The repository -/

/-- The objects by their references, which are places in the list, and the bag of the references that are stored. -/
structure DefinitionRepository where
  objects : List StateMachineDefinitionAggregate := []
  defs : List Nat := []

/-- What the handlers throw. -/
inductive DefinitionException where
  | notFoundException (code message : String)
  | domainException (code message : String)
  | nullReferenceException
  | invalidOperationException
  | functionServiceException
  deriving DecidableEq, Repr

namespace DefinitionRepository

/-- `Query().FirstOrDefault(wanted)`. -/
def firstOrDefault (repository : DefinitionRepository) (wanted : StateMachineDefinitionAggregate → Bool) : Option Nat :=
  repository.defs.find? fun ref => repository.objects[ref]?.any wanted

/-- Changes an object. -/
def modify (repository : DefinitionRepository) (ref : Nat)
    (change : StateMachineDefinitionAggregate → StateMachineDefinitionAggregate) : DefinitionRepository :=
  { repository with objects := repository.objects.modify ref change }

/-- `Add` of a new object. -/
def add (repository : DefinitionRepository) (workflowDef : StateMachineDefinitionAggregate) : DefinitionRepository where
  objects := repository.objects ++ [workflowDef]
  defs := repository.defs ++ [repository.objects.length]

/-- `Update`. -/
def update (repository : DefinitionRepository) (ref : Nat) : DefinitionRepository × Except DefinitionException Unit :=
  match repository.firstOrDefault fun d => some d.id = repository.objects[ref]?.map (·.id) with
  | none => (repository, .error .invalidOperationException)
  | some first => ({ repository with defs := remove repository.defs first ++ [ref] }, .ok ())

end DefinitionRepository

/-! ## The handlers -/

/-- What the handlers use from outside: the function service, which may throw, and of the JSON library
`Metadata.SelectToken(path).ToString()`, which throws on null, and the text of an object with a topic. -/
structure DefinitionServices where
  get : String → String → Option String
  publish : Option String → String → String → Option String
  selectToken : Option String → String → Option String
  topicMetadata : Option String → String

/-- What a command reads from outside: the new GUIDs and the times, in the order they are drawn. -/
structure DefinitionEnv where
  newGuid : Nat → String
  utcNow : Nat → DateTime

/-- An event of `ApplicationDomainStateMachineEvtUpdatedEvent`. -/
structure ApplicationDomainEvt where
  isConsumed : Bool
  messageId : Option String
  topicName : Option String
  deriving DecidableEq, Repr

/-- The commands, and the messages of the consumer. -/
inductive DefinitionCommand where
  | addStateMachine (workflowDefinition : StateMachineDefinitionAggregate)
  | addEmptyStateMachine (name description vpn : Option String)
  | updateStateMachine (id : String) (workflowDefinition : StateMachineDefinitionAggregate)
  | updateStateMachineInfo (id : String) (name description : Option String)
  | applicationDomainAdded (correlationId aggregateId rootTopic : Option String)
  | applicationDomainAddFailed (correlationId : Option String)
  | applicationDomainStateMachineEvtUpdated (aggregateId : Option String) (evts : List ApplicationDomainEvt)

/-- Gives the state another technical identifier. -/
def DefinitionState.setTechnicalId (technicalId : String) : DefinitionState → DefinitionState
  | .callback state => .callback { state with technicalId := some technicalId }
  | .event state => .event { state with technicalId := some technicalId }
  | .forEach state => .forEach { state with technicalId := some technicalId }
  | .inject state => .inject { state with technicalId := some technicalId }
  | .operation state => .operation { state with technicalId := some technicalId }
  | .switch state => .switch { state with technicalId := some technicalId }

namespace StateMachineDefinitionAggregate

/-- `RefreshTechnicalId`, with the GUIDs from `drawn` on. -/
def refreshTechnicalId (definition : StateMachineDefinitionAggregate) (env : DefinitionEnv) (drawn : Nat) :
    StateMachineDefinitionAggregate :=
  { definition with
    technicalId := some (env.newGuid drawn)
    states := definition.states.mapIdx fun i state => state.setTechnicalId (env.newGuid (drawn + 1 + i)) }

/-- `Create`; its technical identifier is replaced by `CreateEmpty`. -/
def create (env : DefinitionEnv) (id : String) (version : Int32) (name description vpn : Option String) :
    StateMachineDefinitionAggregate where
  id := some id
  version := version
  name := name
  description := description
  isLast := true
  updateDateTime := env.utcNow 0
  createDateTime := env.utcNow 1
  vpn := vpn
  status := .CREATE
  technicalId := some (env.newGuid 1)

/-- A definition without states. -/
def createEmpty (env : DefinitionEnv) (id : String) (name description vpn : Option String) :
    StateMachineDefinitionAggregate :=
  let stateId := env.newGuid 2
  let helloWorld : StateMachineDefinitionInjectState :=
    { type := .Inject, id := some stateId, name := some "helloWorld"
      dataStr := some "\x7b'message' : 'Hello World !' \x7d", isEnd := true }
  refreshTechnicalId { create env id 1 name description vpn with
    states := [.inject helloWorld], start := some { stateName := some stateId } } env 3

/-- The name and the description are changed. -/
def updateInfo (definition : StateMachineDefinitionAggregate) (env : DefinitionEnv) (name description : Option String) :
    StateMachineDefinitionAggregate :=
  { definition with name, description, updateDateTime := env.utcNow 0 }

end StateMachineDefinitionAggregate

/-- The text of `Global.UnknownStateMachineDef`. -/
def unknownStateMachineDef (id : Option String) : String := "statemachine def '" ++ id.getD "" ++ "' doesn't exist"

namespace DefinitionServices

section
variable (services : DefinitionServices)

/-- The image and the version of a custom function. -/
def imageOf (function : StateMachineDefinitionFunction) : Except DefinitionException (String × String) :=
  match services.selectToken function.metadataStr "image", services.selectToken function.metadataStr "version" with
  | some image, some version => .ok (image, version)
  | _, _ => .error .nullReferenceException

/-- A function is published, and gets its identifier. -/
def publishFunction (function : StateMachineDefinitionFunction) (image version : String) :
    Except DefinitionException StateMachineDefinitionFunction :=
  match services.publish function.name image version with
  | none => .error .functionServiceException
  | some id => .ok { function with functionId := some id }

/-- The loop of `AddStateMachineCommandHandler`. -/
def publishFunctions (functions : List StateMachineDefinitionFunction) :
    Except DefinitionException (List StateMachineDefinitionFunction) :=
  functions.mapM fun function =>
    if function.type = .CUSTOM then do
      let (image, version) ← services.imageOf function
      services.publishFunction function image version
    else .ok function

/-- The loop of `UpdateStateMachineCommandHandler`, which publishes what it cannot get. -/
def resolveFunctions (functions : List StateMachineDefinitionFunction) :
    Except DefinitionException (List StateMachineDefinitionFunction) :=
  functions.mapM fun function =>
    if function.type = .CUSTOM then do
      let (image, version) ← services.imageOf function
      match services.get image version with
      | some id => .ok { function with functionId := some id }
      | none => services.publishFunction function image version
    else .ok function

end

end DefinitionServices

namespace DefinitionRepository

section
variable (services : DefinitionServices) (repository : DefinitionRepository) (env : DefinitionEnv)

/-- A definition is added. -/
def addStateMachine (workflowDefinition : StateMachineDefinitionAggregate) :
    DefinitionRepository × Except DefinitionException Unit :=
  match repository.firstOrDefault fun d => d.id = workflowDefinition.id with
  | some _ => (repository, .error (.domainException "STATEMACHINE_ALREADY_EXISTS" "statemachine already exists"))
  | none =>
    match services.publishFunctions workflowDefinition.functions with
    | .error e => (repository, .error e)
    | .ok functions => (repository.add { workflowDefinition with functions }, .ok ())

/-- The new `Id` is the first GUID. -/
def addEmptyStateMachine (name description vpn : Option String) : DefinitionRepository × Except DefinitionException Unit :=
  (repository.add (.createEmpty env (env.newGuid 0) name description vpn), .ok ())

/-- The next version of `old`, with the content of the request. -/
def nextVersion (old workflowDefinition : StateMachineDefinitionAggregate) : StateMachineDefinitionAggregate :=
  StateMachineDefinitionAggregate.refreshTechnicalId
    { workflowDefinition with
      id := old.id
      version := old.version + 1
      vpn := old.vpn
      applicationDomainId := old.applicationDomainId
      status := old.status
      rootTopic := old.rootTopic
      createDateTime := env.utcNow 0
      updateDateTime := env.utcNow 1
      isLast := true } env 0

/-- The next version of a definition is added, and the one before is the last no more. -/
def updateStateMachine (id : String) (workflowDefinition : StateMachineDefinitionAggregate) :
    DefinitionRepository × Except DefinitionException Unit :=
  match repository.firstOrDefault fun d => d.technicalId = some id with
  | none => (repository, .error (.notFoundException "UNKNOWN_STATEMACHINE_DEF" (unknownStateMachineDef workflowDefinition.id)))
  | some ref =>
    match services.resolveFunctions workflowDefinition.functions with
    | .error e => (repository, .error e)
    | .ok functions =>
      match repository.objects[ref]? with
      | none => (repository, .error .nullReferenceException)
      | some old =>
        match (repository.modify ref fun d => { d with isLast := false }).update ref with
        | (repository, .ok ()) => (repository.add (nextVersion env old { workflowDefinition with functions }), .ok ())
        | failed => failed

/-- Changes the object that was found, if one was, and updates it. -/
def changeFound (found : Option Nat) (change : StateMachineDefinitionAggregate → StateMachineDefinitionAggregate)
    (otherwise : Except DefinitionException Unit) : DefinitionRepository × Except DefinitionException Unit :=
  match found with
  | none => (repository, otherwise)
  | some ref => (repository.modify ref change).update ref

/-- The name and the description of a definition are changed. -/
def updateStateMachineInfo (id : String) (name description : Option String) :
    DefinitionRepository × Except DefinitionException Unit :=
  changeFound repository (repository.firstOrDefault fun d => d.technicalId = some id)
    (fun d => d.updateInfo env name description)
    (.error (.notFoundException "UNKNOWN_STATEMACHINE_DEF" (unknownStateMachineDef (some id))))

/-- The three messages of `StateMachineConsumer`. The first two do not look whether a definition was found. -/
def consumeAdded (correlationId aggregateId rootTopic : Option String) :
    DefinitionRepository × Except DefinitionException Unit :=
  changeFound repository (repository.firstOrDefault fun d => d.id = correlationId)
    (fun d => { d with applicationDomainId := aggregateId, rootTopic, status := .ACTIVE }) (.error .nullReferenceException)

/-- A definition whose domain could not be added is inactive. -/
def consumeAddFailed (correlationId : Option String) : DefinitionRepository × Except DefinitionException Unit :=
  changeFound repository (repository.firstOrDefault fun d => d.id = correlationId)
    (fun d => { d with status := .INACTIVE }) (.error .nullReferenceException)

/-- The events a message gives a definition. -/
def eventsOf (evts : List ApplicationDomainEvt) : List StateMachineDefinitionEvent :=
  evts.map fun evt =>
    { kind := if evt.isConsumed then .Consumed else .Produced
      source := some ("urn:" ++ evt.messageId.getD "")
      metadataStr := some (services.topicMetadata evt.topicName) }

/-- `Query().OrderByDescending(s => s.Version).FirstOrDefault(s => s.ApplicationDomainId == aggregateId)`. -/
def latestOfDomain (aggregateId : Option String) : Option Nat :=
  (descending (fun ref => (repository.objects[ref]?.elim 0 (·.version)).toInt) repository.defs).find? fun ref =>
    repository.objects[ref]?.any fun d => d.applicationDomainId = aggregateId

/-- A definition gets the events of its domain. -/
def consumeEvtUpdated (aggregateId : Option String) (evts : List ApplicationDomainEvt) :
    DefinitionRepository × Except DefinitionException Unit :=
  changeFound repository (repository.latestOfDomain aggregateId)
    (fun d => { d with events := eventsOf services evts, updateDateTime := env.utcNow 0 }) (.ok ())

/-- Runs a command. -/
def exec : DefinitionCommand → DefinitionRepository × Except DefinitionException Unit
  | .addStateMachine workflowDefinition => addStateMachine services repository workflowDefinition
  | .addEmptyStateMachine name description vpn => addEmptyStateMachine repository env name description vpn
  | .updateStateMachine id workflowDefinition => updateStateMachine services repository env id workflowDefinition
  | .updateStateMachineInfo id name description => updateStateMachineInfo repository env id name description
  | .applicationDomainAdded correlationId aggregateId rootTopic => consumeAdded repository correlationId aggregateId rootTopic
  | .applicationDomainAddFailed correlationId => consumeAddFailed repository correlationId
  | .applicationDomainStateMachineEvtUpdated aggregateId evts => consumeEvtUpdated services repository env aggregateId evts

/-! ## Runs -/

/-- A command, what it reads from outside, and the order in which the bag gives its references to it. -/
structure DefinitionCall where
  env : DefinitionEnv
  order : List Nat
  command : DefinitionCommand

/-- The repository as the bag gives it to a call. -/
def enumerated (call : DefinitionCall) : DefinitionRepository := { repository with defs := call.order }

/-- The bag may give its references in any order, and a new GUID is not the `Id` of a definition. -/
def Possible (call : DefinitionCall) : Prop :=
  call.order.Perm repository.defs ∧ ∀ d ∈ repository.objects, d.id ≠ some (call.env.newGuid 0)

instance (call : DefinitionCall) : Decidable (repository.Possible call) := inferInstanceAs (Decidable (_ ∧ _))

/-- A run goes on after a command that throws. -/
def step (call : DefinitionCall) : Option DefinitionRepository :=
  if repository.Possible call then some (exec services (repository.enumerated call) call.env call.command).1 else none

/-! ## What is asked of the versions -/

/-- What the versions of a definition are told apart by. -/
def versionOf (d : StateMachineDefinitionAggregate) : Version (Option String) Int := ⟨d.id, d.version.toInt, d.isLast⟩

/-- The definitions that are stored. -/
def stored : List StateMachineDefinitionAggregate := repository.defs.filterMap (repository.objects[·]?)

/-- Every definition ever stored is there once, the versions of each have different numbers, one of them is the last
one, and no number is higher than its. -/
structure Kept : Prop where
  once : repository.defs.Perm (List.range repository.objects.length)
  versioned : Versioned (repository.stored.map versionOf)

/-- `Update` of the object would take out the object itself. -/
def FirstOfId (ref : Nat) : Prop :=
  ∀ old ∈ repository.objects[ref]?, (repository.firstOrDefault fun d => d.id = old.id) = some ref

/-- An added definition says that it is the last version; the version that is updated is the last one and its number
is not the highest there is; and whatever is changed is what the bag gives first of its `Id`. -/
def Orderly : DefinitionCommand → Prop
  | .addStateMachine workflowDefinition =>
    (repository.firstOrDefault fun d => d.id = workflowDefinition.id) = none →
      (services.publishFunctions workflowDefinition.functions).isOk → workflowDefinition.isLast
  | .updateStateMachine id workflowDefinition =>
    ∀ ref ∈ repository.firstOrDefault fun d => d.technicalId = some id,
      (services.resolveFunctions workflowDefinition.functions).isOk →
      repository.FirstOfId ref ∧ ∀ old ∈ repository.objects[ref]?, old.isLast ∧ old.version ≠ Int32.maxValue
  | .updateStateMachineInfo id _ _ =>
    ∀ ref ∈ repository.firstOrDefault fun d => d.technicalId = some id, repository.FirstOfId ref
  | .applicationDomainStateMachineEvtUpdated aggregateId _ =>
    ∀ ref ∈ repository.latestOfDomain aggregateId, repository.FirstOfId ref
  | _ => True

/-- A call that is possible is orderly. -/
def OrderlyCall (call : DefinitionCall) : Prop :=
  repository.Possible call → Orderly services (repository.enumerated call) call.command

end

section
variable {services : DefinitionServices} {repository : DefinitionRepository} {env : DefinitionEnv} {ref : Nat}
  {old : StateMachineDefinitionAggregate}

theorem filterMap_range_getElem? {α : Type*} (l : List α) : (List.range l.length).filterMap (l[·]?) = l := by
  induction l using List.reverseRecOn with
  | nil => rfl
  | append_singleton l a ih =>
    have earlier : (List.range l.length).filterMap ((l ++ [a])[·]?) = (List.range l.length).filterMap (l[·]?) := by
      refine List.filterMap_congr fun k inside => ?_
      exact List.getElem?_append_left (List.mem_range.mp inside)
    simp [List.range_succ, earlier, ih]

theorem stored_perm (once : repository.defs.Perm (List.range repository.objects.length)) :
    repository.stored.Perm repository.objects :=
  (once.filterMap _).trans (.of_eq (filterMap_range_getElem? _))

/-- The order of the bag does not matter. -/
theorem kept_iff : repository.Kept ↔
    repository.defs.Perm (List.range repository.objects.length) ∧ Versioned (repository.objects.map versionOf) := by
  constructor
  · exact fun kept => ⟨kept.once, kept.versioned.perm ((stored_perm kept.once).map _)⟩
  · exact fun ⟨once, versioned⟩ => ⟨once, versioned.perm ((stored_perm once).map _).symm⟩

theorem Kept.enumerated (kept : repository.Kept) {call : DefinitionCall} (order : call.order.Perm repository.defs) :
    (repository.enumerated call).Kept := by
  obtain ⟨once, versioned⟩ := kept_iff.mp kept
  exact kept_iff.mpr ⟨order.trans once, versioned⟩

theorem firstOrDefault_some {wanted : StateMachineDefinitionAggregate → Bool}
    (found : repository.firstOrDefault wanted = some ref) :
    ref ∈ repository.defs ∧ ∃ d, repository.objects[ref]? = some d ∧ wanted d := by
  refine ⟨List.mem_of_find?_eq_some found, ?_⟩
  have holds := List.find?_some found
  exact (Option.any_eq_true _ _).mp holds

/-- Taking one reference out of the bag and putting another in keeps each there once only if they are the same. -/
theorem perm_update_iff {defs : List Nat} {n first : Nat} (once : defs.Perm (List.range n)) (stored : first ∈ defs)
    (there : ref ∈ defs) : (remove defs first ++ [ref]).Perm (List.range n) ↔ first = ref := by
  constructor
  · intro after
    by_contra other
    have again : ref ∈ remove defs first :=
      (remove_perm defs first).mem_iff.mpr ((List.mem_erase_of_ne (Ne.symm other)).mpr there)
    have nodup := after.nodup_iff.mpr List.nodup_range
    exact (List.nodup_append.mp nodup).2.2 ref again ref (by simp) rfl
  · rintro rfl
    exact (List.perm_append_singleton _ _).trans ((remove_cons_perm stored).trans once)

theorem firstOrDefault_modify {wanted : StateMachineDefinitionAggregate → Bool}
    {change : StateMachineDefinitionAggregate → StateMachineDefinitionAggregate} (same : ∀ d, wanted (change d) = wanted d) :
    (repository.modify ref change).firstOrDefault wanted = repository.firstOrDefault wanted := by
  refine List.find?_congr fun k _ => ?_
  simp only [modify, List.getElem?_modify]
  split <;> cases repository.objects[k]? <;> simp [same]

/-- `Update` of an object that was changed in place. -/
theorem update_modify (found : repository.objects[ref]? = some old) (there : ref ∈ repository.defs)
    {change : StateMachineDefinitionAggregate → StateMachineDefinitionAggregate} (same : ∀ d, (change d).id = d.id) :
    ∃ first ∈ repository.defs, (repository.firstOrDefault fun d => d.id = old.id) = some first ∧
      (repository.modify ref change).update ref =
        ({ objects := repository.objects.modify ref change, defs := remove repository.defs first ++ [ref] }, .ok ()) := by
  have some_first : (repository.firstOrDefault fun d => d.id = old.id).isSome := by
    rw [firstOrDefault, List.find?_isSome]
    exact ⟨ref, there, by simp [found]⟩
  obtain ⟨first, first_eq⟩ := Option.isSome_iff_exists.mp some_first
  refine ⟨first, (firstOrDefault_some first_eq).1, first_eq, ?_⟩
  have asked : (repository.modify ref change).objects[ref]?.map (·.id) = some old.id := by
    simp [modify, found, same]
  have again : ((repository.modify ref change).firstOrDefault fun d => some d.id = some old.id) = some first := by
    rw [firstOrDefault_modify fun d => by rw [same], ← first_eq]
    simp only [Option.some.injEq]
  simp only [update, asked, again]
  rfl

theorem map_modify_eq {α β : Type*} {l : List α} {k : Nat} {f : α → α} {g : α → β} (same : ∀ a, g (f a) = g a) :
    (l.modify k f).map g = l.map g := by
  refine List.ext_getElem? fun j => ?_
  simp only [List.getElem?_map, List.getElem?_modify]
  split <;> cases l[j]? <;> simp [same]

/-- Changing an object, but not what its versions are told apart by, and updating it. -/
theorem kept_changeFound_iff (kept : repository.Kept) {found : Option Nat} (there : ∀ ref ∈ found, ref ∈ repository.defs)
    {change : StateMachineDefinitionAggregate → StateMachineDefinitionAggregate} (id : ∀ d, (change d).id = d.id)
    (version : ∀ d, versionOf (change d) = versionOf d) (otherwise : Except DefinitionException Unit) :
    (changeFound repository found change otherwise).1.Kept ↔ ∀ ref ∈ found, repository.FirstOfId ref := by
  cases found with
  | none => simp [changeFound, kept]
  | some ref =>
    have there := there ref rfl
    obtain ⟨once, versioned⟩ := kept_iff.mp kept
    have inside : ref < repository.objects.length := List.mem_range.mp (once.mem_iff.mp there)
    have found := List.getElem?_eq_getElem inside
    obtain ⟨first, stored, first_eq, updated⟩ := update_modify found there id
    simp only [changeFound, updated, kept_iff, List.length_modify, map_modify_eq version, versioned, and_true,
      perm_update_iff once stored there, FirstOfId, Option.mem_def, Option.some.injEq, forall_eq', found, first_eq]

/-- A new definition whose `Id` is not there. -/
theorem kept_add_iff (kept : repository.Kept) {workflowDef : StateMachineDefinitionAggregate}
    (new : ∀ d ∈ repository.objects, d.id ≠ workflowDef.id) : (repository.add workflowDef).Kept ↔ workflowDef.isLast := by
  obtain ⟨once, versioned⟩ := kept_iff.mp kept
  have all : (repository.add workflowDef).defs.Perm (List.range (repository.add workflowDef).objects.length) := by
    simp only [add, List.length_append, List.length_singleton, List.range_succ]
    exact once.append_right _
  have last : ((repository.add workflowDef).objects.map versionOf).Perm
      (versionOf workflowDef :: repository.objects.map versionOf) := by
    simp [add]
  rw [kept_iff, and_iff_right all, versioned_perm_iff last]
  refine versioned_cons_new_iff versioned fun version member => ?_
  obtain ⟨d, inside, rfl⟩ := List.mem_map.mp member
  exact new d inside

theorem toInt_lt_toInt_succ_iff (version : Int32) : version.toInt < (version + 1).toInt ↔ version ≠ Int32.maxValue := by
  have top : version ≠ Int32.maxValue ↔ version.toInt ≠ 2147483647 := by
    rw [ne_eq, ← Int32.toInt_inj]
    exact Iff.rfl
  have low := version.le_toInt
  have high := version.toInt_lt
  rw [top, Int32.toInt_add, Int.bmod_def]
  have one : (1 : Int32).toInt = 1 := rfl
  rw [one]
  split <;> omega

/-- A list with the element at `k` moved to the front, changed or not. -/
theorem modify_perm {α : Type*} {l : List α} {k : Nat} {a : α} (found : l[k]? = some a) (f : α → α) :
    (l.modify k f).Perm (f a :: l.eraseIdx k) ∧ l.Perm (a :: l.eraseIdx k) := by
  obtain ⟨inside, rfl⟩ := List.getElem?_eq_some_iff.mp found
  refine ⟨?_, (List.getElem_cons_eraseIdx_perm inside).symm⟩
  rw [List.modify_eq_take_cons_drop inside, List.eraseIdx_eq_take_drop_succ]
  exact List.perm_middle

/-- The next version of a definition is stored after it. -/
theorem kept_follow_iff (kept : repository.Kept) (found : repository.objects[ref]? = some old) {first : Nat}
    (stored : first ∈ repository.defs) (there : ref ∈ repository.defs) {next : StateMachineDefinitionAggregate}
    (same : next.id = old.id) (number : next.version = old.version + 1) (last : next.isLast) :
    (add ⟨repository.objects.modify ref fun d => { d with isLast := false }, remove repository.defs first ++ [ref]⟩ next).Kept ↔
      first = ref ∧ old.isLast ∧ old.version ≠ Int32.maxValue := by
  obtain ⟨once, versioned⟩ := kept_iff.mp kept
  obtain ⟨changed, moved⟩ := modify_perm found fun d => { d with isLast := false }
  have before := versioned.perm (moved.map versionOf)
  have after : ((repository.objects.modify ref fun d => { d with isLast := false }) ++ [next]).Perm
      (next :: { old with isLast := false } :: repository.objects.eraseIdx ref) :=
    (List.perm_append_singleton _ _).trans (changed.cons next)
  have follow : Versioned (versionOf next :: { versionOf old with current := false } ::
      (repository.objects.eraseIdx ref).map versionOf) ↔ _ := versioned_follow_iff before same last
  have up : (versionOf old).number < (versionOf next).number ↔ old.version ≠ Int32.maxValue := by
    rw [versionOf, versionOf, number]
    exact toInt_lt_toInt_succ_iff old.version
  rw [kept_iff]
  simp only [add, List.length_append, List.length_singleton, List.length_modify, List.range_succ]
  rw [versioned_perm_iff (after.map versionOf), List.perm_append_right_iff, perm_update_iff once stored there]
  exact and_congr_right fun _ => follow.trans (and_congr_right fun _ => up)

theorem kept_updateStateMachine_iff (kept : repository.Kept) (id : String)
    (workflowDefinition : StateMachineDefinitionAggregate) :
    (updateStateMachine services repository env id workflowDefinition).1.Kept ↔
      Orderly services repository (.updateStateMachine id workflowDefinition) := by
  simp only [updateStateMachine, Orderly]
  cases asked : repository.firstOrDefault fun d => d.technicalId = some id with
  | none => simp [kept]
  | some ref =>
    obtain ⟨there, old, found, -⟩ := firstOrDefault_some asked
    cases services.resolveFunctions workflowDefinition.functions with
    | error e => simp [kept, Except.isOk, Except.toBool]
    | ok functions =>
      obtain ⟨first, stored, first_eq, updated⟩ :=
        @update_modify _ _ _ found there (fun d => { d with isLast := false }) fun _ => rfl
      simp only [found, updated]
      refine (kept_follow_iff kept found stored there ?_ ?_ ?_).trans ?_
      · rfl
      · rfl
      · rfl
      · simp [FirstOfId, found, first_eq, Except.isOk, Except.toBool]

theorem mem_of_latestOfDomain {aggregateId : Option String} (found : repository.latestOfDomain aggregateId = some ref) :
    ref ∈ repository.defs :=
  mem_descending.mp (List.mem_of_find?_eq_some found)

theorem kept_addStateMachine_iff (kept : repository.Kept) (workflowDefinition : StateMachineDefinitionAggregate) :
    (addStateMachine services repository workflowDefinition).1.Kept ↔
      Orderly services repository (.addStateMachine workflowDefinition) := by
  simp only [addStateMachine, Orderly]
  cases asked : repository.firstOrDefault fun d => d.id = workflowDefinition.id with
  | some ref => simp [kept]
  | none =>
    cases services.publishFunctions workflowDefinition.functions with
    | error e => simp [kept, Except.isOk, Except.toBool]
    | ok functions =>
      simp only [Except.isOk, Except.toBool, forall_const]
      refine kept_add_iff kept fun d inside (same : d.id = workflowDefinition.id) => ?_
      -- every object is stored, so the query would have found it
      obtain ⟨k, small, rfl⟩ := List.getElem_of_mem inside
      have there : k ∈ repository.defs := kept.once.mem_iff.mpr (List.mem_range.mpr small)
      have missed := List.find?_eq_none.mp asked k there
      simp [small, same] at missed

theorem firstOfId_of_firstOrDefault {id : Option String} (found : (repository.firstOrDefault fun d => d.id = id) = some ref) :
    repository.FirstOfId ref := by
  obtain ⟨-, d, object, wanted⟩ := firstOrDefault_some found
  intro old same
  obtain rfl : d = old := Option.some.inj (object.symm.trans same)
  obtain rfl : d.id = id := by simpa using wanted
  exact found

/-- A command keeps the versions exactly when it is orderly. -/
theorem kept_exec_iff (kept : repository.Kept) (new : ∀ d ∈ repository.objects, d.id ≠ some (env.newGuid 0))
    (command : DefinitionCommand) :
    (exec services repository env command).1.Kept ↔ Orderly services repository command := by
  cases command with
  | addStateMachine workflowDefinition => exact kept_addStateMachine_iff kept workflowDefinition
  | addEmptyStateMachine name description vpn => exact (kept_add_iff kept new).trans (iff_of_true rfl trivial)
  | updateStateMachine id workflowDefinition => exact kept_updateStateMachine_iff kept id workflowDefinition
  | updateStateMachineInfo id name description =>
    rw [exec, updateStateMachineInfo, kept_changeFound_iff kept fun ref found => (firstOrDefault_some found).1]
    · exact Iff.rfl
    · exact fun _ => rfl
    · exact fun _ => rfl
  | applicationDomainAdded correlationId aggregateId rootTopic =>
    rw [exec, consumeAdded, kept_changeFound_iff kept fun ref found => (firstOrDefault_some found).1]
    · exact iff_of_true (fun ref found => firstOfId_of_firstOrDefault found) trivial
    · exact fun _ => rfl
    · exact fun _ => rfl
  | applicationDomainAddFailed correlationId =>
    rw [exec, consumeAddFailed, kept_changeFound_iff kept fun ref found => (firstOrDefault_some found).1]
    · exact iff_of_true (fun ref found => firstOfId_of_firstOrDefault found) trivial
    · exact fun _ => rfl
    · exact fun _ => rfl
  | applicationDomainStateMachineEvtUpdated aggregateId evts =>
    rw [exec, consumeEvtUpdated, kept_changeFound_iff kept fun ref found => mem_of_latestOfDomain found]
    · exact Iff.rfl
    · exact fun _ => rfl
    · exact fun _ => rfl

/-- **When the history of every definition is kept.** -/
theorem versions_kept_iff (services : DefinitionServices) (repository : DefinitionRepository) (calls : List DefinitionCall) :
    Always (step services) Kept repository calls ↔
      repository.Kept ∧ Along (step services) (OrderlyCall services) repository calls := by
  have exact_condition (start : repository.Kept) :
      Always (step services) Kept repository calls ↔ Along (step services) (OrderlyCall services) repository calls := by
    refine always_iff_along (fun _ => True) (fun _ _ _ _ _ _ => trivial) ?_ ?_ trivial start
    · intro repository call _ _ impossible possible
      simp [step, possible] at impossible
    · intro repository call next _ kept taken
      by_cases possible : repository.Possible call
      · obtain rfl : (exec services (repository.enumerated call) call.env call.command).1 = next := by
          simpa [step, possible] using taken
        rw [kept_exec_iff (kept.enumerated possible.1) possible.2]
        exact ⟨fun orderly _ => orderly, fun orderly => orderly possible⟩
      · simp [step, possible] at taken
  exact ⟨fun always => ⟨always.start, (exact_condition always.start).mp always⟩,
    fun ⟨start, along⟩ => (exact_condition start).mpr along⟩

end

/-- Three calls: a definition is created, updated, and its first version is updated again. The bag gives the reference
that was added last first. -/
def updatedFromFirst : List DefinitionCall :=
  [⟨⟨fun n => if n = 0 then "machine" else "first", fun _ => 1⟩, [], .addEmptyStateMachine none none none⟩,
    ⟨⟨fun _ => "second", fun _ => 2⟩, [0], .updateStateMachine "first" {}⟩,
    ⟨⟨fun _ => "third", fun _ => 3⟩, [1, 0], .updateStateMachine "first" {}⟩]

/-- No function is known or published, and no metadata is read. -/
def noServices : DefinitionServices := ⟨fun _ _ => none, fun _ _ _ => none, fun _ _ => none, fun _ => ""⟩

/-- The second version is taken out, the first one is stored twice, and the third version has the number of the second. -/
theorem versions_not_kept_updatedFromFirst : ¬ Always (step noServices) Kept {} updatedFromFirst := by
  intro always
  obtain ⟨once, -⟩ := always.2 _ rfl |>.2 _ rfl |>.2 _ rfl
  have gone : 1 ∈ [0, 0, 2] := once.mem_iff.mpr (by decide)
  exact absurd gone (by decide)

end DefinitionRepository

end FaasNet.StateMachine
