import FaasNet.Common.Text
import FaasNet.Lib.Lists
import FaasNet.Lib.Runs
import Mathlib.Data.List.Nodup
import Mathlib.Logic.Function.Basic

/-!
# The deployments of the functions

A function is published by two programs: the handler looks whether its image is registered, asks the controller for a
namespace with a deployment and a service, adds the function to the targets of Prometheus, and registers it. It is unpublished
the same way, its namespace first. Any of the calls may fail, the caller of the controller may give up while the controller
goes on, and requests meet each other between any two calls. A registered function is never deployed by half: its namespace is
whole, and a request to invoke it comes to its image, or the namespace is gone.
-/

namespace FaasNet.Functions

open FaasNet.Common FaasNet.Lib

/-! ## The functions, and what is deployed for them -/

structure FunctionAggregate where
  id : String
  name : String
  description : String
  version : String
  image : String
  command : String
  createDateTime : Int
  updateDateTime : Int
  deriving DecidableEq, Repr

structure PublishFunctionCommand where
  name : String
  description : String
  image : String
  version : String
  command : String
  deriving DecidableEq, Repr

/-- `FunctionAggregate.Create`. The identifier is random, and the time is read twice. -/
def FunctionAggregate.create (cmd : PublishFunctionCommand) (id : String) (createDateTime updateDateTime : Int) :
    FunctionAggregate where
  id := id
  createDateTime := createDateTime
  name := cmd.name
  updateDateTime := updateDateTime
  image := cmd.image
  command := cmd.command
  description := cmd.description
  version := cmd.version

def FunctionAggregate.clone (f : FunctionAggregate) : FunctionAggregate where
  id := f.id
  createDateTime := f.createDateTime
  updateDateTime := f.updateDateTime
  name := f.name
  command := f.command
  image := f.image
  version := f.version
  description := f.description

/-- A clone has the fields of the function. -/
@[simp] theorem FunctionAggregate.clone_eq (f : FunctionAggregate) : f.clone = f := rfl

structure V1Container where
  name : String
  image : String
  imagePullPolicy : String
  deriving DecidableEq, Repr

/-- A deployment, with the labels that it knows its pods by, and those that it gives them. -/
structure V1Deployment where
  name : String
  replicas : Nat
  matchLabels : List (String × String)
  labels : List (String × String)
  containers : List V1Container
  deriving DecidableEq, Repr

structure V1Service where
  name : String
  type : String
  selector : List (String × String)
  port : Nat
  targetPort : Nat
  deriving DecidableEq, Repr

structure V1Namespace where
  deployments : List V1Deployment := []
  services : List V1Service := []
  deriving DecidableEq, Repr

/-- The namespaces by their names. -/
abbrev Kubernetes := String → Option V1Namespace

/-- `CreateDeployment`, what it asks for. -/
def deploymentOf (f : FunctionAggregate) : V1Deployment where
  name := f.id ++ "-runtime"
  replicas := 2
  matchLabels := [(f.id, "web")]
  labels := [(f.id, "web")]
  containers := [⟨f.id, f.image ++ ":" ++ f.version, "IfNotPresent"⟩]

/-- `CreateService`, what it asks for. -/
def serviceOf (f : FunctionAggregate) : V1Service where
  name := f.id ++ "-entry"
  type := "ClusterIP"
  selector := [(f.id, "web")]
  port := 80
  targetPort := 8080

/-- All that the controller makes for a function. -/
def namespaceOf (f : FunctionAggregate) : V1Namespace := ⟨[deploymentOf f], [serviceOf f]⟩

/-- The name of a service, for those outside of its namespace. -/
def hostOf (service namespaceName : String) : String := service ++ "." ++ namespaceName ++ ".svc.cluster.local"

/-- `BuildFunctionUrl`. -/
def buildFunctionUrl (id : String) : String := "http://" ++ id ++ "-entry." ++ id ++ ".svc.cluster.local"

/-- An image runs behind a URL: the URL is that of a service, and the service selects the pods of the image. -/
def Kubernetes.Runs (cluster : Kubernetes) (url image : String) : Prop :=
  ∃ name ns service deployment, cluster name = some ns ∧ service ∈ ns.services ∧ deployment ∈ ns.deployments ∧
    url = "http://" ++ hostOf service.name name ∧ service.selector ⊆ deployment.labels ∧
    image ∈ deployment.containers.map (·.image)

/-! ## The targets of Prometheus -/

structure PrometheusTarget where
  job : String
  targets : List String
  deriving DecidableEq, Repr

/-- The target that `PrometheusHelper.Add` adds. -/
def targetOf (id : String) : PrometheusTarget := ⟨id, [id ++ "-entry." ++ id ++ ".svc.cluster.local"]⟩

section
variable (prometheusFilePath : Option String)

/-- `PrometheusHelper.GetTargets`, of the file if there is one. -/
def getTargets (file : Option (List PrometheusTarget)) : List PrometheusTarget :=
  if isNullOrWhiteSpace prometheusFilePath then [] else file.getD []

/-- `PrometheusHelper.Update`. -/
def updateTargets (file : Option (List PrometheusTarget)) (targets : List PrometheusTarget) : Option (List PrometheusTarget) :=
  if isNullOrWhiteSpace prometheusFilePath then file else some targets

end

/-! ## The requests -/

/-- How far a request has come. -/
inductive FunctionStage where
  -- `PublishFunctionCommandHandler`.
  | created
  | namespaceCreated
  | deploymentCreated
  | serviceCreated
  | addsTarget (targets : List PrometheusTarget)
  | audited
  | published
  -- `UnpublishFunctionCommandHandler`.
  | found
  | namespaceDeleted
  | removesTarget (targets : List PrometheusTarget)
  | unaudited
  | unpublished
  -- It ended with an exception.
  | failed
  deriving DecidableEq, Repr

namespace FunctionStage

/-- The function is still to be registered. -/
def publishing : FunctionStage → Bool
  | created | namespaceCreated | deploymentCreated | serviceCreated | addsTarget _ | audited => true
  | published | found | namespaceDeleted | removesTarget _ | unaudited | unpublished | failed => false

/-- The namespace is deleted, and the function still to be. -/
def deleting : FunctionStage → Bool
  | namespaceDeleted | removesTarget _ | unaudited => true
  | created | namespaceCreated | deploymentCreated | serviceCreated | addsTarget _ | audited | published | found | unpublished
  | failed => false

def isFound : FunctionStage → Bool
  | found => true
  | created | namespaceCreated | deploymentCreated | serviceCreated | addsTarget _ | audited | published | namespaceDeleted
  | removesTarget _ | unaudited | unpublished | failed => false

def unpublishing (stage : FunctionStage) : Bool := stage.isFound || stage.deleting

def inFlight (stage : FunctionStage) : Bool := stage.publishing || stage.unpublishing

/-- The targets were read, and are still to be written. -/
def auditing : FunctionStage → Option (List PrometheusTarget)
  | addsTarget targets | removesTarget targets => some targets
  | created | namespaceCreated | deploymentCreated | serviceCreated | audited | published | found | namespaceDeleted | unaudited
  | unpublished | failed => none

/-- What the namespace holds, while the function is still to be registered. -/
def built (f : FunctionAggregate) : FunctionStage → Option V1Namespace
  | namespaceCreated => some {}
  | deploymentCreated => some { deployments := [deploymentOf f] }
  | serviceCreated | addsTarget _ | audited => some (namespaceOf f)
  | created | published | found | namespaceDeleted | removesTarget _ | unaudited | unpublished | failed => none

/-- A request may come from a stage to another. -/
def follows (a b : FunctionStage) : Bool :=
  a.inFlight && (!b.publishing || a.publishing) && (!b.unpublishing || a.unpublishing) && (!b.isFound || a.isFound)

/-- The controller is asked, and has not answered. -/
def asking : FunctionStage → Bool
  | created | namespaceCreated | deploymentCreated | serviceCreated | found | namespaceDeleted => true
  | addsTarget _ | audited | published | removesTarget _ | unaudited | unpublished | failed => false

end FunctionStage

/-- A request, and whether its handler has given up to wait for the controller. -/
structure FunctionTask where
  function : FunctionAggregate
  stage : FunctionStage
  abandoned : Bool := false
  deriving DecidableEq, Repr

/-- The repository, the cluster, the file of Prometheus, and the requests, those that have ended too. -/
structure FunctionHost where
  functions : List FunctionAggregate := []
  cluster : Kubernetes := fun _ => none
  targets : Option (List PrometheusTarget) := none
  tasks : List FunctionTask := []

/-- What happens. A call to Kubernetes succeeds where the cluster allows it, and it may fail anywhere; a
namespace that is being deleted counts as gone. -/
inductive FunctionAction where
  | publish (cmd : PublishFunctionCommand) (id : String) (createDateTime updateDateTime : Int)
  | createNamespace (k : Nat)
  | createDeployment (k : Nat)
  | createService (k : Nat)
  | initAudit (k : Nat)
  | writeTargets (k : Nat)
  | add (k : Nat)
  | unpublish (id : String)
  | deleteNamespace (k : Nat)
  | removeAudit (k : Nat)
  | delete (k : Nat)
  -- The handler's client times out.
  | giveUp (k : Nat)
  -- An exception, or the end of the process.
  | fail (k : Nat)
  deriving DecidableEq, Repr

namespace FunctionHost

def addTask (s : FunctionHost) (task : FunctionTask) : FunctionHost := { s with tasks := s.tasks ++ [task] }

def setTask (s : FunctionHost) (k : Nat) (task : FunctionTask) : FunctionHost := { s with tasks := s.tasks.set k task }

/-- Changes the cluster for a request. -/
def setNamespace (s : FunctionHost) (k : Nat) (task : FunctionTask) (ns : Option V1Namespace) : FunctionHost :=
  { s.setTask k task with cluster := Function.update s.cluster task.function.id ns }

section
variable (prometheusFilePath : Option String)

def step (s : FunctionHost) : FunctionAction → Option FunctionHost
  | .publish cmd id createDateTime updateDateTime =>
    let function := FunctionAggregate.create cmd id createDateTime updateDateTime
    if s.functions.any fun f => f.image = function.image && f.version = function.version then
      -- `FUNCTION_ALREADY_EXISTS`
      some s
    else some (s.addTask ⟨function, .created, false⟩)
  | .createNamespace k =>
    match s.tasks[k]? with
    | some ⟨f, .created, abandoned⟩ =>
      match s.cluster f.id with
      | none => some (s.setNamespace k ⟨f, .namespaceCreated, abandoned⟩ (some {}))
      | some _ => none
    | _ => none
  | .createDeployment k =>
    match s.tasks[k]? with
    | some ⟨f, .namespaceCreated, abandoned⟩ =>
      match s.cluster f.id with
      | some ns =>
        if ns.deployments.any (·.name = (deploymentOf f).name) then none
        else
          some (s.setNamespace k ⟨f, .deploymentCreated, abandoned⟩
            (some { ns with deployments := ns.deployments ++ [deploymentOf f] }))
      | none => none
    | _ => none
  | .createService k =>
    match s.tasks[k]? with
    | some ⟨f, .deploymentCreated, abandoned⟩ =>
      match s.cluster f.id with
      | some ns =>
        if ns.services.any (·.name = (serviceOf f).name) then none
        else
          some (s.setNamespace k ⟨f, .serviceCreated, abandoned⟩ (some { ns with services := ns.services ++ [serviceOf f] }))
      | none => none
    | _ => none
  | .initAudit k =>
    match s.tasks[k]? with
    | some ⟨f, .serviceCreated, false⟩ => some (s.setTask k ⟨f, .addsTarget (getTargets prometheusFilePath s.targets), false⟩)
    | _ => none
  | .writeTargets k =>
    match s.tasks[k]? with
    | some ⟨f, .addsTarget targets, _⟩ =>
      some { s.setTask k ⟨f, .audited, false⟩ with
        targets := updateTargets prometheusFilePath s.targets (targets ++ [targetOf f.id]) }
    | some ⟨f, .removesTarget targets, _⟩ =>
      some { s.setTask k ⟨f, .unaudited, false⟩ with
        targets := updateTargets prometheusFilePath s.targets (targets.filter fun t => !(t.job = f.id)) }
    | _ => none
  | .add k =>
    match s.tasks[k]? with
    | some ⟨f, .audited, _⟩ => some { s.setTask k ⟨f, .published, false⟩ with functions := s.functions ++ [f.clone] }
    | _ => none
  | .unpublish id =>
    match s.functions.find? (·.id = id) with
    -- `UNKNOWN_FUNCTION`
    | none => some s
    | some f => some (s.addTask ⟨f, .found, false⟩)
  | .deleteNamespace k =>
    match s.tasks[k]? with
    | some ⟨f, .found, abandoned⟩ =>
      match s.cluster f.id with
      | some _ => some (s.setNamespace k ⟨f, .namespaceDeleted, abandoned⟩ none)
      | none => none
    | _ => none
  | .removeAudit k =>
    match s.tasks[k]? with
    | some ⟨f, .namespaceDeleted, false⟩ =>
      some (s.setTask k ⟨f, .removesTarget (getTargets prometheusFilePath s.targets), false⟩)
    | _ => none
  | .delete k =>
    match s.tasks[k]? with
    | some ⟨f, .unaudited, _⟩ => some { s.setTask k ⟨f, .unpublished, false⟩ with functions := s.functions.erase f }
    | _ => none
  | .giveUp k =>
    match s.tasks[k]? with
    | some task => if task.stage.asking then some (s.setTask k { task with abandoned := true }) else none
    | none => none
  | .fail k =>
    match s.tasks[k]? with
    | some task => if task.stage.inFlight then some (s.setTask k { task with stage := .failed }) else none
    | none => none

end

/-- `InvokeFunctionCommandHandler`, the URL that the controller asks. -/
def invoke (s : FunctionHost) (id : String) : Option String :=
  (s.functions.find? (·.id = id)).map fun f => buildFunctionUrl f.id

/-- The identifier of a new function is not that of a function that is registered or has a request in flight. -/
def Fresh (s : FunctionHost) : FunctionAction → Prop
  | .publish _ id _ _ => id ∉ s.functions.map (·.id) ∧ ∀ task ∈ s.tasks, task.stage.inFlight → task.function.id ≠ id
  | _ => True

instance : ∀ (s : FunctionHost) action, Decidable (s.Fresh action)
  | s, .publish _ id _ _ =>
    inferInstanceAs (Decidable (id ∉ s.functions.map (·.id) ∧ ∀ task ∈ s.tasks, task.stage.inFlight → task.function.id ≠ id))
  | _, .createNamespace _ | _, .createDeployment _ | _, .createService _ | _, .initAudit _ | _, .writeTargets _ | _, .add _
  | _, .unpublish _ | _, .deleteNamespace _ | _, .removeAudit _ | _, .delete _ | _, .giveUp _ | _, .fail _ =>
    inferInstanceAs (Decidable True)

/-! ## The invariant -/

/-- What holds between two actions. -/
structure Consistent (s : FunctionHost) : Prop where
  distinct : (s.functions.map (·.id)).Nodup
  -- A function that is being published has one request.
  alone : ∀ (j k : Nat) t u, s.tasks[j]? = some t → s.tasks[k]? = some u → t.stage.publishing → u.stage.inFlight →
    t.function.id = u.function.id → j = k
  -- One request deletes a function.
  oneDeletes : ∀ (j k : Nat) t u, s.tasks[j]? = some t → s.tasks[k]? = some u → t.stage.deleting → u.stage.deleting →
    t.function.id = u.function.id → j = k
  unregistered : ∀ (k : Nat) t, s.tasks[k]? = some t → t.stage.publishing → ∀ f ∈ s.functions, f.id ≠ t.function.id
  same : ∀ (k : Nat) t, s.tasks[k]? = some t → t.stage.unpublishing → ∀ f ∈ s.functions, f.id = t.function.id →
    f = t.function
  found : ∀ (k : Nat) t, s.tasks[k]? = some t → t.stage = .found → t.function ∈ s.functions ∨ s.cluster t.function.id = none
  deleting : ∀ (k : Nat) t, s.tasks[k]? = some t → t.stage.deleting →
    t.function ∈ s.functions ∧ s.cluster t.function.id = none
  built : ∀ (k : Nat) t, s.tasks[k]? = some t → ∀ ns, t.stage.built t.function = some ns →
    s.cluster t.function.id = some ns
  deployed : ∀ f ∈ s.functions, s.cluster f.id = none ∨ s.cluster f.id = some (namespaceOf f)
  shaped : ∀ name ns, s.cluster name = some ns → ∃ f stage, f.id = name ∧ FunctionStage.built f stage = some ns

end FunctionHost

namespace FunctionStage

variable {stage : FunctionStage} {f : FunctionAggregate} {ns : V1Namespace}

/-- Only a request that publishes has built a part. -/
theorem publishing_of_built (built : stage.built f = some ns) : stage.publishing := by
  cases stage <;> first | rfl | cases built

theorem inFlight_of_publishing (publishing : stage.publishing) : stage.inFlight := by
  rw [inFlight, publishing, Bool.true_or]

theorem inFlight_of_unpublishing (unpublishing : stage.unpublishing) : stage.inFlight := by
  rw [inFlight, unpublishing, Bool.or_true]

theorem inFlight_of_asking (asking : stage.asking) : stage.inFlight := by
  cases stage <;> first | rfl | cases asking

theorem auditing_of_asking (asking : stage.asking) : stage.auditing = none := by
  cases stage <;> first | rfl | cases asking

theorem isFound_iff : stage.isFound ↔ stage = .found := by
  cases stage <;> simp [isFound]

theorem unpublishing_iff : stage.unpublishing ↔ stage = .found ∨ stage.deleting := by
  rw [unpublishing, Bool.or_eq_true, isFound_iff]

/-- What a request can come to: it is in flight, and does not begin anew. -/
theorem follows_iff {a b : FunctionStage} : a.follows b ↔ a.inFlight ∧ (b.publishing → a.publishing) ∧
    (b.unpublishing → a.unpublishing) ∧ (b = .found → a = .found) := by
  simp only [follows, Bool.and_eq_true, Bool.or_eq_true, Bool.not_eq_true', ← isFound_iff, and_assoc,
    ← Bool.not_eq_true, ← imp_iff_not_or]

theorem follows_self (flies : stage.inFlight) : stage.follows stage := follows_iff.mpr ⟨flies, id, id, id⟩

/-- Every request can fail. -/
theorem follows_failed (flies : stage.inFlight) : stage.follows .failed := by
  refine follows_iff.mpr ⟨flies, ?_, ?_, ?_⟩ <;> intro impossible <;> cases impossible

theorem not_publishing_of_unpublishing (unpublishing : stage.unpublishing) : ¬ stage.publishing := by
  cases stage <;> first | exact Bool.false_ne_true | cases unpublishing

/-- The only service of a function is its own. -/
theorem eq_serviceOf_of_built (built : stage.built f = some ns) {service : V1Service} (member : service ∈ ns.services) :
    service = serviceOf f := by
  cases stage with
  | namespaceCreated | deploymentCreated =>
    cases built
    cases member
  | serviceCreated | addsTarget | audited =>
    cases built
    exact List.mem_singleton.mp member
  | created | published | found | namespaceDeleted | removesTarget | unaudited | unpublished | failed => cases built

theorem follows_of_publishing {a b : FunctionStage} (before : a.publishing) (after : b.publishing) : a.follows b := by
  have idle : ¬ b.unpublishing := fun unpublishing => not_publishing_of_unpublishing unpublishing after
  refine follows_iff.mpr ⟨inFlight_of_publishing before, fun _ => before, (absurd · idle), ?_⟩
  rintro rfl
  cases after

end FunctionStage

namespace FunctionHost

section
variable {s : FunctionHost} {k : Nat} {f : FunctionAggregate} {a b : FunctionStage} {x y : Bool}

/-- The functions are known by their identifiers. -/
theorem Consistent.eq_of_id (inv : s.Consistent) {f g : FunctionAggregate} (first : f ∈ s.functions)
    (second : g ∈ s.functions) (ids : f.id = g.id) : f = g :=
  List.inj_on_of_nodup_map inv.distinct first second ids

/-- One request goes on, and changes at most the namespace of its function. -/
structure Advances (s t : FunctionHost) (k : Nat) (f : FunctionAggregate) (a b : FunctionStage) : Prop where
  here : ∃ x, s.tasks[k]? = some ⟨f, a, x⟩
  tasks : ∃ y, t.tasks = s.tasks.set k ⟨f, b, y⟩
  functions : t.functions = s.functions
  elsewhere : ∀ name, name ≠ f.id → t.cluster name = s.cluster name
  follows : a.follows b

namespace Advances

variable {t : FunctionHost}

theorem flies (advances : Advances s t k f a b) : a.inFlight := (FunctionStage.follows_iff.mp advances.follows).1

theorem publishing (advances : Advances s t k f a b) : b.publishing → a.publishing :=
  (FunctionStage.follows_iff.mp advances.follows).2.1

theorem unpublishing (advances : Advances s t k f a b) : b.unpublishing → a.unpublishing :=
  (FunctionStage.follows_iff.mp advances.follows).2.2.1

theorem found (advances : Advances s t k f a b) : b = .found → a = .found :=
  (FunctionStage.follows_iff.mp advances.follows).2.2.2

/-- One request has moved; the others are where they were. -/
theorem task (advances : Advances s t k f a b) {j : Nat} {u : FunctionTask} (there : t.tasks[j]? = some u) :
    (j = k ∧ ∃ y, u = ⟨f, b, y⟩) ∨ (j ≠ k ∧ s.tasks[j]? = some u) := by
  obtain ⟨y, tasks⟩ := advances.tasks
  rw [tasks] at there
  obtain ⟨rfl, rfl⟩ | other := set_cases there
  · exact .inl ⟨rfl, y, rfl⟩
  · exact .inr other

/-- Where a function is being published, the other requests in flight are not about it. -/
theorem apart (advances : Advances s t k f a b) (inv : s.Consistent) {j : Nat} {u : FunctionTask} (other : j ≠ k)
    (there : s.tasks[j]? = some u) (flies : u.stage.inFlight) (either : a.publishing ∨ u.stage.publishing) :
    u.function.id ≠ f.id := by
  intro ids
  obtain ⟨x, here⟩ := advances.here
  rcases either with publishing | publishing
  · exact other (inv.alone k j _ u here there publishing flies ids.symm).symm
  · exact other (inv.alone j k u _ there here publishing advances.flies ids)

/-- Where a function was being published and is no longer, no request in flight is about it. -/
theorem free (advances : Advances s t k f a b) (inv : s.Consistent) (publishing : a.publishing) (done : ¬ b.inFlight) {j : Nat}
    {u : FunctionTask} (there : t.tasks[j]? = some u) (flies : u.stage.inFlight) : u.function.id ≠ f.id := by
  obtain ⟨rfl, _, rfl⟩ | ⟨other, before⟩ := advances.task there
  · exact absurd flies done
  · exact advances.apart inv other before flies (.inl publishing)

/-- A name without a namespace keeps none under another request that takes a function away. -/
theorem none_of_other (advances : Advances s t k f a b) (inv : s.Consistent)
    (keeps : ¬ a.publishing → t.cluster f.id = s.cluster f.id ∨ t.cluster f.id = none) {j : Nat} {u : FunctionTask}
    (other : j ≠ k) (there : s.tasks[j]? = some u) (unpublishing : u.stage.unpublishing) (gone : s.cluster u.function.id = none) :
    t.cluster u.function.id = none := by
  by_cases own : u.function.id = f.id
  · have idle : ¬ a.publishing := fun publishing =>
      advances.apart inv other there (FunctionStage.inFlight_of_unpublishing unpublishing) (.inl publishing) own
    rw [own] at gone ⊢
    rcases keeps idle with same | deleted
    · exact same.trans gone
    · exact deleted
  · exact (advances.elsewhere _ own).trans gone

/-- A request that publishes is still alone with its name. -/
theorem alone (advances : Advances s t k f a b) (inv : s.Consistent) {i j : Nat} {u v : FunctionTask} (first : t.tasks[i]? = some u)
    (second : t.tasks[j]? = some v) (publishing : u.stage.publishing) (flies : v.stage.inFlight)
    (ids : u.function.id = v.function.id) : i = j := by
  obtain ⟨rfl, _, rfl⟩ | ⟨i_other, first⟩ := advances.task first <;>
    obtain ⟨rfl, _, rfl⟩ | ⟨j_other, second⟩ := advances.task second
  · rfl
  · exact absurd ids.symm (advances.apart inv j_other second flies (.inl (advances.publishing publishing)))
  · exact absurd ids
      (advances.apart inv i_other first (FunctionStage.inFlight_of_publishing publishing) (.inr publishing))
  · exact inv.alone i j u v first second publishing flies ids

/-- Still only one request deletes what belongs to a name: the namespace is there for the first only. -/
theorem oneDeletes (advances : Advances s t k f a b) (inv : s.Consistent)
    (deletes : b.deleting → a.deleting ∨ s.cluster f.id ≠ none) {i j : Nat} {u v : FunctionTask}
    (first : t.tasks[i]? = some u) (second : t.tasks[j]? = some v) (mine : u.stage.deleting) (yours : v.stage.deleting)
    (ids : u.function.id = v.function.id) : i = j := by
  obtain ⟨x, here⟩ := advances.here
  have only : ∀ {j u}, s.tasks[j]? = some u → b.deleting → u.stage.deleting → u.function.id = f.id → j = k := by
    intro j u there now deleting ids
    rcases deletes now with before | some
    · exact inv.oneDeletes j k u _ there here deleting before ids
    · exact absurd (ids ▸ (inv.deleting j u there deleting).2) some
  obtain ⟨rfl, _, rfl⟩ | ⟨-, first⟩ := advances.task first <;>
    obtain ⟨rfl, _, rfl⟩ | ⟨-, second⟩ := advances.task second
  · rfl
  · exact (only second mine yours ids.symm).symm
  · exact only first yours mine ids
  · exact inv.oneDeletes i j u v first second mine yours ids

end Advances

/-- What is left to show of a request that goes on. -/
theorem Consistent.advance {t : FunctionHost} (inv : s.Consistent) (advances : Advances s t k f a b)
    (first : b.deleting → a.deleting ∨ s.cluster f.id ≠ none)
    (keeps : ¬ a.publishing → t.cluster f.id = s.cluster f.id ∨ t.cluster f.id = none)
    (gone : b.deleting → t.cluster f.id = none) (built : ∀ ns, b.built f = some ns → t.cluster f.id = some ns)
    (shaped : ∀ ns, t.cluster f.id = some ns → s.cluster f.id = some ns ∨ ∃ stage, FunctionStage.built f stage = some ns) :
    t.Consistent := by
  obtain ⟨x, here⟩ := advances.here
  constructor
  case distinct =>
    rw [advances.functions]
    exact inv.distinct
  case alone =>
    intro i j u v first second publishing flies ids
    exact advances.alone inv first second publishing flies ids
  case oneDeletes =>
    intro i j u v first' second mine yours ids
    exact advances.oneDeletes inv first first' second mine yours ids
  case unregistered =>
    intro j u there publishing
    rw [advances.functions]
    obtain ⟨rfl, _, rfl⟩ | ⟨-, before⟩ := advances.task there
    · exact inv.unregistered j ⟨f, a, x⟩ here (advances.publishing publishing)
    · exact inv.unregistered j u before publishing
  case same =>
    intro j u there unpublishing
    rw [advances.functions]
    obtain ⟨rfl, _, rfl⟩ | ⟨-, before⟩ := advances.task there
    · exact inv.same j ⟨f, a, x⟩ here (advances.unpublishing unpublishing)
    · exact inv.same j u before unpublishing
  case found =>
    intro j u there found
    rw [advances.functions]
    obtain ⟨rfl, _, rfl⟩ | ⟨other, before⟩ := advances.task there
    · obtain rfl := advances.found found
      refine (inv.found j _ here rfl).imp_right fun none => ?_
      rcases keeps Bool.false_ne_true with same | none'
      · exact same.trans none
      · exact none'
    · refine (inv.found j u before found).imp_right (advances.none_of_other inv keeps other before ?_)
      exact FunctionStage.unpublishing_iff.mpr (.inl found)
  case deleting =>
    intro j u there deletes
    rw [advances.functions]
    obtain ⟨rfl, _, rfl⟩ | ⟨other, before⟩ := advances.task there
    · refine ⟨?_, gone deletes⟩
      rcases FunctionStage.unpublishing_iff.mp (advances.unpublishing (FunctionStage.unpublishing_iff.mpr (.inr deletes)))
        with rfl | before
      · refine (inv.found j _ here rfl).resolve_right ?_
        exact (first deletes).resolve_left Bool.false_ne_true
      · exact (inv.deleting j _ here before).1
    · obtain ⟨registered, none⟩ := inv.deleting j u before deletes
      exact ⟨registered, advances.none_of_other inv keeps other before (FunctionStage.unpublishing_iff.mpr (.inr deletes)) none⟩
  case built =>
    intro j u there ns isBuilt
    obtain ⟨rfl, _, rfl⟩ | ⟨other, before⟩ := advances.task there
    · exact built ns isBuilt
    · have publishing := FunctionStage.publishing_of_built isBuilt
      rw [advances.elsewhere _ (advances.apart inv other before (FunctionStage.inFlight_of_publishing publishing)
        (.inr publishing))]
      exact inv.built j u before ns isBuilt
  case deployed =>
    intro g member
    rw [advances.functions] at member
    by_cases own : g.id = f.id
    · have idle : ¬ a.publishing := fun publishing => inv.unregistered k _ here publishing g member own
      rw [own]
      rcases keeps idle with same | none
      · rw [same, ← own]
        exact inv.deployed g member
      · exact .inl none
    · rw [advances.elsewhere _ own]
      exact inv.deployed g member
  case shaped =>
    intro name ns there
    by_cases own : name = f.id
    · subst own
      rcases shaped ns there with before | ⟨stage, isBuilt⟩
      · exact inv.shaped _ ns before
      · exact ⟨f, stage, rfl, isBuilt⟩
    · rw [advances.elsewhere name own] at there
      exact inv.shaped name ns there

/-- A request that goes on and changes no namespace. -/
theorem Consistent.go {t : FunctionHost} (inv : s.Consistent) (advances : Advances s t k f a b)
    (cluster : t.cluster = s.cluster) (deleting : b.deleting → a.deleting)
    (built : ∀ ns, b.built f = some ns → a.built f = some ns) : t.Consistent := by
  obtain ⟨x, here⟩ := advances.here
  rw [show t = { t with cluster := s.cluster } from cluster ▸ rfl] at advances ⊢
  refine inv.advance advances (fun deletes => .inl (deleting deletes)) (fun _ => .inl rfl) ?_ ?_ fun _ before => .inl before
  · intro deletes
    exact (inv.deleting k _ here (deleting deletes)).2
  · intro ns isBuilt
    exact inv.built k _ here ns (built ns isBuilt)

/-! ## The steps of a request -/

/-- A function is registered that nobody else is busy with. -/
theorem Consistent.register (inv : s.Consistent)
    (free : ∀ (j : Nat) u, s.tasks[j]? = some u → u.stage.inFlight → u.function.id ≠ f.id)
    (unregistered : ∀ g ∈ s.functions, g.id ≠ f.id) (whole : s.cluster f.id = some (namespaceOf f)) :
    { s with functions := s.functions ++ [f] }.Consistent := by
  have member : ∀ {g}, g ∈ s.functions ++ [f] → g ∈ s.functions ∨ g = f := fun member => by simpa using member
  refine ⟨?distinct, inv.alone, inv.oneDeletes, ?unregistered, ?same, ?found, ?deleting, inv.built, ?deployed, inv.shaped⟩
  case distinct =>
    rw [List.map_append, List.map_singleton]
    refine List.nodup_append.mpr ⟨inv.distinct, List.nodup_singleton _, ?_⟩
    intro id there id' own
    obtain ⟨g, registered, rfl⟩ := List.mem_map.mp there
    obtain rfl := List.mem_singleton.mp own
    exact unregistered g registered
  case unregistered =>
    intro j u there publishing g registered
    rcases member registered with before | rfl
    · exact inv.unregistered j u there publishing g before
    · exact (free j u there (FunctionStage.inFlight_of_publishing publishing)).symm
  case same =>
    intro j u there unpublishing g registered ids
    rcases member registered with before | rfl
    · exact inv.same j u there unpublishing g before ids
    · exact absurd ids.symm (free j u there (FunctionStage.inFlight_of_unpublishing unpublishing))
  case found =>
    intro j u there found
    exact (inv.found j u there found).imp_left (List.mem_append_left _)
  case deleting =>
    intro j u there deleting
    exact (inv.deleting j u there deleting).imp_left (List.mem_append_left _)
  case deployed =>
    intro g registered
    rcases member registered with before | rfl
    · exact inv.deployed g before
    · exact .inr whole

/-- A function is deleted whose namespace is gone. -/
theorem Consistent.unregister (inv : s.Consistent) (gone : s.cluster f.id = none)
    (free : ∀ (j : Nat) u, s.tasks[j]? = some u → u.stage.deleting → u.function.id ≠ f.id) :
    { s with functions := s.functions.erase f }.Consistent := by
  have less : s.functions.erase f ⊆ s.functions := List.erase_subset
  refine ⟨?distinct, inv.alone, inv.oneDeletes, ?unregistered, ?same, ?found, ?deleting, inv.built,
    fun g member => inv.deployed g (less member), inv.shaped⟩
  case distinct =>
    exact inv.distinct.sublist (List.erase_sublist.map _)
  case unregistered =>
    intro j u there publishing g member
    exact inv.unregistered j u there publishing g (less member)
  case same =>
    intro j u there unpublishing g member
    exact inv.same j u there unpublishing g (less member)
  case found =>
    intro j u there found
    by_cases own : u.function.id = f.id
    · exact .inr (own ▸ gone)
    · refine (inv.found j u there found).imp_left (List.mem_erase_of_ne fun same => ?_).mpr
      exact own (congrArg FunctionAggregate.id same)
  case deleting =>
    intro j u there deleting
    refine (inv.deleting j u there deleting).imp_left (List.mem_erase_of_ne fun same => ?_).mpr
    exact free j u there deleting (congrArg FunctionAggregate.id same)

/-- A new request. -/
theorem Consistent.request (inv : s.Consistent) (new : b = .created ∨ b = .found ∧ f ∈ s.functions)
    (unregistered : b.publishing → ∀ g ∈ s.functions, g.id ≠ f.id)
    (alone : ∀ (j : Nat) u, s.tasks[j]? = some u → b.publishing ∧ u.stage.inFlight ∨ u.stage.publishing →
      u.function.id ≠ f.id) :
    (s.addTask ⟨f, b, x⟩).Consistent := by
  have idle : ¬ b.deleting := by rcases new with rfl | ⟨rfl, -⟩ <;> exact Bool.false_ne_true
  have empty : b.built f = none := by rcases new with rfl | ⟨rfl, -⟩ <;> rfl
  have registered : b.unpublishing → f ∈ s.functions := by
    rcases new with rfl | ⟨-, registered⟩
    · intro unpublishing
      cases unpublishing
    · exact fun _ => registered
  refine ⟨inv.distinct, ?alone, ?oneDeletes, ?unregistered, ?same, ?found, ?deleting, ?built, inv.deployed, inv.shaped⟩
  case alone =>
    intro i j t u first second publishing flies ids
    obtain ⟨rfl, rfl⟩ | first := concat_cases first <;> obtain ⟨rfl, rfl⟩ | second := concat_cases second
    · rfl
    · exact absurd ids.symm (alone j u second (.inl ⟨publishing, flies⟩))
    · exact absurd ids (alone i t first (.inr publishing))
    · exact inv.alone i j t u first second publishing flies ids
  case oneDeletes =>
    intro i j t u first second mine yours ids
    obtain ⟨rfl, rfl⟩ | first := concat_cases first
    · exact absurd mine idle
    · obtain ⟨rfl, rfl⟩ | second := concat_cases second
      · exact absurd yours idle
      · exact inv.oneDeletes i j t u first second mine yours ids
  case unregistered =>
    intro j u there publishing
    obtain ⟨rfl, rfl⟩ | before := concat_cases there
    · exact unregistered publishing
    · exact inv.unregistered j u before publishing
  case same =>
    intro j u there unpublishing
    obtain ⟨rfl, rfl⟩ | before := concat_cases there
    · exact fun g member ids => inv.eq_of_id member (registered unpublishing) ids
    · exact inv.same j u before unpublishing
  case found =>
    intro j u there found
    obtain ⟨rfl, rfl⟩ | before := concat_cases there
    · exact .inl (registered (FunctionStage.unpublishing_iff.mpr (.inl found)))
    · exact inv.found j u before found
  case deleting =>
    intro j u there deleting
    obtain ⟨rfl, rfl⟩ | before := concat_cases there
    · exact absurd deleting idle
    · exact inv.deleting j u before deleting
  case built =>
    intro j u there ns built
    obtain ⟨rfl, rfl⟩ | before := concat_cases there
    · rw [empty] at built
      cases built
    · exact inv.built j u before ns built

/-- A request goes on that leaves the cluster as it is. -/
theorem Advances.of (here : s.tasks[k]? = some ⟨f, a, x⟩) (follows : a.follows b)
    (targets : Option (List PrometheusTarget)) : Advances s { s.setTask k ⟨f, b, y⟩ with targets := targets } k f a b :=
  ⟨⟨x, here⟩, ⟨y, rfl⟩, rfl, fun _ _ => rfl, follows⟩

/-- A request goes on that changes the namespace of its function. -/
theorem Advances.ofNamespace (here : s.tasks[k]? = some ⟨f, a, x⟩) (follows : a.follows b) (ns : Option V1Namespace) :
    Advances s (s.setNamespace k ⟨f, b, y⟩ ns) k f a b :=
  ⟨⟨x, here⟩, ⟨y, rfl⟩, rfl, fun _ other => Function.update_of_ne other _ _, follows⟩

/-- The controller has made something of the namespace. -/
theorem Consistent.create (inv : s.Consistent) (here : s.tasks[k]? = some ⟨f, a, x⟩) {ns : V1Namespace}
    (publishing : a.publishing) (built : b.built f = some ns) : (s.setNamespace k ⟨f, b, y⟩ (some ns)).Consistent := by
  have after : b.publishing := FunctionStage.publishing_of_built built
  have follows : a.follows b := FunctionStage.follows_of_publishing publishing after
  have busy : ¬ b.unpublishing := fun unpublishing => FunctionStage.not_publishing_of_unpublishing unpublishing after
  have still : ¬ b.deleting := fun deleting => busy (FunctionStage.unpublishing_iff.mpr (.inr deleting))
  have own : (s.setNamespace k ⟨f, b, y⟩ (some ns)).cluster f.id = some ns := Function.update_self ..
  have advances : Advances s (s.setNamespace k ⟨f, b, y⟩ (some ns)) k f a b :=
    .ofNamespace here follows (some ns)
  refine inv.advance advances (absurd · still) (absurd publishing) (absurd · still) ?_ ?_
  · intro ns' built'
    rw [own, ← built, built']
  · intro ns' there
    exact .inr ⟨b, built.trans (own.symm.trans there)⟩

/-- The namespace is deleted, and with it what was built. -/
theorem Consistent.deleteNamespace (inv : s.Consistent) (here : s.tasks[k]? = some ⟨f, .found, x⟩) {ns : V1Namespace}
    (there : s.cluster f.id = some ns) : (s.setNamespace k ⟨f, .namespaceDeleted, y⟩ none).Consistent := by
  have own : (s.setNamespace k ⟨f, .namespaceDeleted, y⟩ none).cluster f.id = none := Function.update_self ..
  have advances : Advances s (s.setNamespace k ⟨f, .namespaceDeleted, y⟩ none) k f .found .namespaceDeleted :=
    .ofNamespace here rfl none
  refine inv.advance advances (fun _ => .inr (by simp [there])) (fun _ => .inr own) (fun _ => own) ?_ ?_
  · intro ns built
    cases built
  · intro ns some
    rw [own] at some
    cases some

/-- A function is registered at the end of its publication. -/
theorem Consistent.add (inv : s.Consistent) (here : s.tasks[k]? = some ⟨f, .audited, x⟩) :
    { s.setTask k ⟨f, .published, y⟩ with functions := s.functions ++ [f] }.Consistent := by
  have advances : Advances s (s.setTask k ⟨f, .published, y⟩) k f .audited .published :=
    .of here rfl s.targets
  have after : (s.setTask k ⟨f, .published, y⟩).Consistent := by
    refine inv.go advances rfl ?_ ?_
    · intro deleting
      cases deleting
    · intro ns built
      cases built
  refine after.register ?_ (inv.unregistered k _ here rfl) (inv.built k _ here _ rfl)
  intro j u there flies
  exact advances.free inv rfl Bool.false_ne_true there flies

/-- A function is taken out at the end of its unpublication. -/
theorem Consistent.delete (inv : s.Consistent) (here : s.tasks[k]? = some ⟨f, .unaudited, x⟩) :
    { s.setTask k ⟨f, .unpublished, y⟩ with functions := s.functions.erase f }.Consistent := by
  have advances : Advances s (s.setTask k ⟨f, .unpublished, y⟩) k f .unaudited .unpublished :=
    .of here rfl s.targets
  have after : (s.setTask k ⟨f, .unpublished, y⟩).Consistent := by
    refine inv.go advances rfl (fun _ => rfl) ?_
    intro ns built
    cases built
  refine after.unregister (inv.deleting k _ here rfl).2 ?_
  intro j u there deleting ids
  obtain ⟨rfl, _, rfl⟩ | ⟨other, before⟩ := advances.task there
  · cases deleting
  · exact other (inv.oneDeletes j k u _ before here deleting rfl ids)

/-- Nothing is registered and nothing runs. -/
theorem Consistent.start : Consistent {} := by
  refine ⟨List.nodup_nil, ?_, ?_, ?_, ?_, ?_, ?_, ?_, ?_, ?_⟩
  · intro j k t u there
    cases there
  · intro j k t u there
    cases there
  · intro k t there
    cases there
  · intro k t there
    cases there
  · intro k t there
    cases there
  · intro k t there
    cases there
  · intro k t there
    cases there
  · intro f member
    cases member
  · intro name ns there
    cases there

/-! ## What an action does -/

/-- A request goes from a stage to another, outside of the cluster, and leaves these targets. -/
inductive Goes (path : Option String) (targets : Option (List PrometheusTarget)) (f : FunctionAggregate) :
    FunctionAction → FunctionStage → FunctionStage → Option (List PrometheusTarget) → Prop
  | givesUp {k : Nat} {a : FunctionStage} (asking : a.asking) : Goes path targets f (.giveUp k) a a targets
  | fails {k : Nat} {a : FunctionStage} (flies : a.inFlight) : Goes path targets f (.fail k) a .failed targets
  | initsAudit {k : Nat} :
      Goes path targets f (.initAudit k) .serviceCreated (.addsTarget (getTargets path targets)) targets
  | adds {k : Nat} (was : List PrometheusTarget) : Goes path targets f (.writeTargets k) (.addsTarget was) .audited
      (updateTargets path targets (was ++ [targetOf f.id]))
  | removesAudit {k : Nat} :
      Goes path targets f (.removeAudit k) .namespaceDeleted (.removesTarget (getTargets path targets)) targets
  | removes {k : Nat} (was : List PrometheusTarget) : Goes path targets f (.writeTargets k) (.removesTarget was) .unaudited
      (updateTargets path targets (was.filter fun t => !(t.job = f.id)))

/-- What an action leads to. -/
inductive Moves (path : Option String) (s : FunctionHost) : FunctionAction → FunctionHost → Prop
  | stays {action : FunctionAction} : Moves path s action s
  | publishes (cmd : PublishFunctionCommand) (id : String) (createDateTime updateDateTime : Int) :
      Moves path s (.publish cmd id createDateTime updateDateTime)
        (s.addTask ⟨.create cmd id createDateTime updateDateTime, .created, false⟩)
  | unpublishes {f : FunctionAggregate} (registered : f ∈ s.functions) :
      Moves path s (.unpublish f.id) (s.addTask ⟨f, .found, false⟩)
  | goes {action : FunctionAction} {k : Nat} {f : FunctionAggregate} {a b : FunctionStage} {x y : Bool}
      {targets : Option (List PrometheusTarget)} (here : s.tasks[k]? = some ⟨f, a, x⟩)
      (goes : Goes path s.targets f action a b targets) : Moves path s action { s.setTask k ⟨f, b, y⟩ with targets := targets }
  | creates {action : FunctionAction} {k : Nat} {f : FunctionAggregate} {a b : FunctionStage} {x : Bool} {ns : V1Namespace}
      (here : s.tasks[k]? = some ⟨f, a, x⟩) (publishing : a.publishing) (asking : b.asking) (built : b.built f = some ns) :
      Moves path s action (s.setNamespace k ⟨f, b, x⟩ (some ns))
  | deletesNamespace {action : FunctionAction} {k : Nat} {f : FunctionAggregate} {x : Bool} {ns : V1Namespace}
      (here : s.tasks[k]? = some ⟨f, .found, x⟩) (there : s.cluster f.id = some ns) :
      Moves path s action (s.setNamespace k ⟨f, .namespaceDeleted, x⟩ none)
  | registers {action : FunctionAction} {k : Nat} {f : FunctionAggregate} {x : Bool}
      (here : s.tasks[k]? = some ⟨f, .audited, x⟩) :
      Moves path s action { s.setTask k ⟨f, .published, false⟩ with functions := s.functions ++ [f] }
  | unregisters {action : FunctionAction} {k : Nat} {f : FunctionAggregate} {x : Bool}
      (here : s.tasks[k]? = some ⟨f, .unaudited, x⟩) :
      Moves path s action { s.setTask k ⟨f, .unpublished, false⟩ with functions := s.functions.erase f }

/-- An action moves a request to what follows. -/
theorem Goes.follows {path : Option String} {targets targets' : Option (List PrometheusTarget)} {action : FunctionAction}
    (goes : Goes path targets f action a b targets') : a.follows b := by
  cases goes with
  | givesUp asking => exact FunctionStage.follows_self (FunctionStage.inFlight_of_asking asking)
  | fails flies => exact FunctionStage.follows_failed flies
  | initsAudit | adds | removesAudit | removes => rfl

/-- What a function's namespace is, and whether it was deleted, does not change with such a step. -/
theorem Goes.keeps {path : Option String} {targets targets' : Option (List PrometheusTarget)} {action : FunctionAction}
    (goes : Goes path targets f action a b targets') :
    (b.deleting → a.deleting) ∧ ∀ ns, b.built f = some ns → a.built f = some ns := by
  cases goes with
  | givesUp | initsAudit | adds | removesAudit | removes => exact ⟨id, fun _ => id⟩
  | fails =>
    constructor
    · intro deleting
      cases deleting
    · intro ns built
      cases built

theorem Goes.ne_published {path : Option String} {targets targets' : Option (List PrometheusTarget)} {action : FunctionAction}
    (goes : Goes path targets f action a b targets') : b ≠ .published := by
  rintro rfl
  cases goes with
  | givesUp asking => cases asking

/-- Every action is one of these. A namespace is never met with more in it than the request has made. -/
theorem Consistent.moves {path : Option String} {action : FunctionAction} {t : FunctionHost} (inv : s.Consistent)
    (taken : s.step path action = some t) : Moves path s action t := by
  cases action with
  | publish cmd id createDateTime updateDateTime =>
    simp only [step] at taken
    split_ifs at taken
    · cases taken
      exact .stays
    · cases taken
      exact .publishes cmd id createDateTime updateDateTime
  | createNamespace k =>
    simp only [step] at taken
    split at taken
    next f abandoned here =>
      split at taken
      next =>
        cases taken
        exact .creates here rfl rfl rfl
      next => cases taken
    next => cases taken
  | createDeployment k =>
    simp only [step] at taken
    split at taken
    next f abandoned here =>
      split at taken
      next ns there =>
        obtain rfl : V1Namespace.mk [] [] = ns := Option.some.inj ((inv.built k _ here _ rfl).symm.trans there)
        split_ifs at taken
        cases taken
        exact .creates here rfl rfl rfl
      next => cases taken
    next => cases taken
  | createService k =>
    simp only [step] at taken
    split at taken
    next f abandoned here =>
      split at taken
      next ns there =>
        obtain rfl : V1Namespace.mk [deploymentOf f] [] = ns :=
          Option.some.inj ((inv.built k _ here _ rfl).symm.trans there)
        split_ifs at taken
        cases taken
        exact .creates here rfl rfl rfl
      next => cases taken
    next => cases taken
  | initAudit k =>
    simp only [step] at taken
    split at taken
    next f here =>
      cases taken
      exact .goes here .initsAudit
    next => cases taken
  | writeTargets k =>
    simp only [step] at taken
    split at taken
    next f was abandoned here =>
      cases taken
      exact .goes here (.adds was)
    next f was abandoned here =>
      cases taken
      exact .goes here (.removes was)
    next => cases taken
  | add k =>
    simp only [step] at taken
    split at taken
    next f abandoned here =>
      cases taken
      exact .registers here
    next => cases taken
  | unpublish id =>
    simp only [step] at taken
    split at taken
    next =>
      cases taken
      exact .stays
    next f known =>
      cases taken
      obtain rfl : f.id = id := by simpa using List.find?_some known
      exact .unpublishes (List.mem_of_find?_eq_some known)
  | deleteNamespace k =>
    simp only [step] at taken
    split at taken
    next f abandoned here =>
      split at taken
      next ns there =>
        cases taken
        exact .deletesNamespace here there
      next => cases taken
    next => cases taken
  | removeAudit k =>
    simp only [step] at taken
    split at taken
    next f here =>
      cases taken
      exact .goes here .removesAudit
    next => cases taken
  | delete k =>
    simp only [step] at taken
    split at taken
    next f abandoned here =>
      cases taken
      exact .unregisters here
    next => cases taken
  | giveUp k =>
    simp only [step] at taken
    split at taken
    next task here =>
      obtain ⟨asking, rfl⟩ : task.stage.asking = true ∧ _ = t := by
        simpa only [Option.ite_none_right_eq_some, Option.some.injEq] using taken
      exact .goes here (.givesUp asking)
    next => cases taken
  | fail k =>
    simp only [step] at taken
    split at taken
    next task here =>
      obtain ⟨flies, rfl⟩ : task.stage.inFlight = true ∧ _ = t := by
        simpa only [Option.ite_none_right_eq_some, Option.some.injEq] using taken
      exact .goes here (.fails flies)
    next => cases taken

/-- Every action keeps the invariant. -/
theorem Consistent.step {path : Option String} {action : FunctionAction} {t : FunctionHost} (inv : s.Consistent)
    (fresh : s.Fresh action) (taken : s.step path action = some t) : t.Consistent := by
  cases inv.moves taken with
  | stays => exact inv
  | publishes cmd id =>
    obtain ⟨unregistered, free⟩ := fresh
    refine inv.request (.inl rfl) (fun _ g member ids => unregistered (List.mem_map.mpr ⟨g, member, ids⟩)) ?_
    rintro j u there (⟨-, flies⟩ | publishing)
    · exact free u (List.mem_of_getElem? there) flies
    · exact free u (List.mem_of_getElem? there) (FunctionStage.inFlight_of_publishing publishing)
  | unpublishes registered =>
    refine inv.request (.inr ⟨rfl, registered⟩) (fun publishing => by cases publishing) ?_
    rintro j u there (⟨publishing, -⟩ | publishing)
    · cases publishing
    · exact (inv.unregistered j u there publishing _ registered).symm
  | goes here goes => exact inv.go (.of here goes.follows _) rfl goes.keeps.1 goes.keeps.2
  | creates here publishing asking built => exact inv.create here publishing built
  | deletesNamespace here there => exact inv.deleteNamespace here there
  | registers here => exact inv.add here
  | unregisters here => exact inv.delete here

/-! ## The functions that are served -/

/-- A request to invoke the function comes to its image, and to no other. -/
def Serves (s : FunctionHost) (f : FunctionAggregate) : Prop :=
  s.invoke f.id = some (buildFunctionUrl f.id) ∧
    ∀ image, s.cluster.Runs (buildFunctionUrl f.id) image ↔ image = f.image ++ ":" ++ f.version

/-- The function is registered, its namespace is whole, and nobody is about to change it. -/
def Keeps (s : FunctionHost) (f : FunctionAggregate) : Prop :=
  f ∈ s.functions ∧ s.cluster f.id = some (namespaceOf f) ∧ ∀ task ∈ s.tasks, task.stage.inFlight → task.function.id ≠ f.id

/-- The function is registered, its namespace is gone, and nobody is about to make one, or to delete the function. -/
def Stranded (s : FunctionHost) (f : FunctionAggregate) : Prop :=
  f ∈ s.functions ∧ s.cluster f.id = none ∧
    ∀ task ∈ s.tasks, task.stage.inFlight → task.function.id = f.id → task.stage = .found

end

/-- Functions have URLs of their own. -/
theorem buildFunctionUrl_inj {id id' : String} : buildFunctionUrl id = buildFunctionUrl id' ↔ id = id' := by
  refine ⟨fun same => ?_, fun same => same ▸ rfl⟩
  have texts := congrArg String.toList same
  simp only [buildFunctionUrl, String.toList_append, List.append_assoc, List.append_cancel_left_eq] at texts
  have lengths : id.toList.length = id'.toList.length := by
    have total := congrArg List.length texts
    simp only [List.length_append] at total
    omega
  exact String.toList_inj.mp (List.append_inj_left texts lengths)

section
variable {s : FunctionHost} {f : FunctionAggregate}

/-- Only the function's own namespace has a service behind its URL. -/
theorem Consistent.runs_iff (inv : s.Consistent) {id image : String} :
    s.cluster.Runs (buildFunctionUrl id) image ↔ ∃ ns, s.cluster id = some ns ∧ ∃ service ∈ ns.services,
      ∃ deployment ∈ ns.deployments, service.selector ⊆ deployment.labels ∧ image ∈ deployment.containers.map (·.image) := by
  have urls : ∀ {name ns service}, s.cluster name = some ns → service ∈ ns.services →
      "http://" ++ hostOf service.name name = buildFunctionUrl name := by
    intro name ns service there member
    obtain ⟨g, stage, rfl, built⟩ := inv.shaped name ns there
    obtain rfl := FunctionStage.eq_serviceOf_of_built built member
    simp only [hostOf, serviceOf, buildFunctionUrl, String.append_assoc]
    rfl
  constructor
  · rintro ⟨name, ns, service, deployment, there, service_mem, deployment_mem, url, selects, runs⟩
    obtain rfl : id = name := buildFunctionUrl_inj.mp (url.trans (urls there service_mem))
    exact ⟨ns, there, service, service_mem, deployment, deployment_mem, selects, runs⟩
  · rintro ⟨ns, there, service, service_mem, deployment, deployment_mem, selects, runs⟩
    exact ⟨id, ns, service, deployment, there, service_mem, deployment_mem, (urls there service_mem).symm, selects, runs⟩

/-- Behind the URL of a function whose namespace is gone nothing runs. -/
theorem Consistent.not_runs (inv : s.Consistent) (gone : s.cluster f.id = none) (image : String) :
    ¬ s.cluster.Runs (buildFunctionUrl f.id) image := by
  rw [inv.runs_iff, gone]
  rintro ⟨ns, there, -⟩
  cases there

/-- A registered function is asked for at its URL. -/
theorem invoke_eq (registered : f ∈ s.functions) : s.invoke f.id = some (buildFunctionUrl f.id) := by
  obtain ⟨g, known⟩ : ∃ g, s.functions.find? (·.id = f.id) = some g :=
    Option.isSome_iff_exists.mp (List.find?_isSome.mpr ⟨f, registered, by simp⟩)
  have ids : g.id = f.id := by simpa using List.find?_some known
  rw [invoke, known, Option.map_some, ids]

/-- A registered function with its namespace is served. -/
theorem Consistent.serves (inv : s.Consistent) (registered : f ∈ s.functions)
    (whole : s.cluster f.id = some (namespaceOf f)) : s.Serves f := by
  refine ⟨invoke_eq registered, fun image => ?_⟩
  rw [inv.runs_iff, whole]
  simp [namespaceOf, serviceOf, deploymentOf, eq_comm]

end

section
variable {s t : FunctionHost} {f g : FunctionAggregate} {k : Nat} {a b : FunctionStage} {x y : Bool} {path : Option String}
  {action : FunctionAction}

/-- What other requests do leaves the function as it is. -/
theorem Keeps.advance (keeps : s.Keeps f) (advances : Advances s t k g a b) : t.Keeps f := by
  obtain ⟨registered, whole, idle⟩ := keeps
  obtain ⟨_, here⟩ := advances.here
  have other : g.id ≠ f.id := idle _ (List.mem_of_getElem? here) advances.flies
  refine ⟨advances.functions ▸ registered, (advances.elsewhere _ other.symm).trans whole, ?_⟩
  intro task member flies
  obtain ⟨j, there⟩ := List.mem_iff_getElem?.mp member
  obtain ⟨-, _, rfl⟩ | ⟨-, before⟩ := advances.task there
  · exact other
  · exact idle task (List.mem_of_getElem? before) flies

/-- A new request is about another function. -/
theorem Keeps.request (keeps : s.Keeps f) (other : g.id ≠ f.id) : (s.addTask ⟨g, b, x⟩).Keeps f := by
  obtain ⟨registered, whole, idle⟩ := keeps
  refine ⟨registered, whole, ?_⟩
  intro task member flies
  rcases List.mem_append.mp member with before | new
  · exact idle task before flies
  · obtain rfl := List.mem_singleton.mp new
    exact other

/-- A function is kept until somebody asks to unpublish it. -/
theorem Keeps.step (inv : s.Consistent) (keeps : s.Keeps f) (fresh : s.Fresh action) (kept : action ≠ .unpublish f.id)
    (taken : s.step path action = some t) : t.Keeps f := by
  cases inv.moves taken with
  | stays => exact keeps
  | publishes cmd id =>
    apply keeps.request
    rintro rfl
    exact fresh.1 (List.mem_map_of_mem keeps.1)
  | unpublishes =>
    apply keeps.request
    intro same
    exact kept (congrArg FunctionAction.unpublish same)
  | goes here goes => exact keeps.advance (.of here goes.follows _)
  | creates here publishing asking built =>
    exact keeps.advance (.ofNamespace here (FunctionStage.follows_of_publishing publishing
      (FunctionStage.publishing_of_built built)) _)
  | deletesNamespace here => exact keeps.advance (.ofNamespace here rfl _)
  | @registers _ k g x here =>
    have advances : Advances s (s.setTask k ⟨g, .published, false⟩) k g .audited .published := .of here rfl s.targets
    obtain ⟨registered, whole, idle⟩ := keeps.advance advances
    exact ⟨List.mem_append_left _ registered, whole, idle⟩
  | @unregisters _ k g x here =>
    have advances : Advances s (s.setTask k ⟨g, .unpublished, false⟩) k g .unaudited .unpublished := .of here rfl s.targets
    obtain ⟨registered, whole, idle⟩ := keeps.advance advances
    refine ⟨(List.mem_erase_of_ne ?_).mpr registered, whole, idle⟩
    rintro rfl
    exact keeps.2.2 _ (List.mem_of_getElem? here) rfl rfl

/-- A function that was just published is kept. -/
theorem Consistent.keeps_of_published (inv : s.Consistent) (here : s.tasks[k]? = some ⟨f, .audited, x⟩) :
    { s.setTask k ⟨f, .published, y⟩ with functions := s.functions ++ [f] }.Keeps f := by
  have advances : Advances s (s.setTask k ⟨f, .published, y⟩) k f .audited .published :=
    .of here rfl s.targets
  refine ⟨List.mem_append_right _ List.mem_cons_self, inv.built k _ here _ rfl, ?_⟩
  intro task member flies
  obtain ⟨j, there⟩ := List.mem_iff_getElem?.mp member
  exact advances.free inv rfl Bool.false_ne_true there flies

/-- A request that has published a function has done it before, or does it now. -/
theorem Consistent.published_cases (inv : s.Consistent) (taken : s.step path action = some t) {task : FunctionTask}
    (member : task ∈ t.tasks) (published : task.stage = .published) : task ∈ s.tasks ∨ t.Keeps task.function := by
  obtain ⟨j, there⟩ := List.mem_iff_getElem?.mp member
  have before : ∀ {t k f a b}, Advances s t k f a b → b ≠ .published → t.tasks[j]? = some task → task ∈ s.tasks := by
    intro t k f a b advances other there
    obtain ⟨-, _, rfl⟩ | ⟨-, before⟩ := advances.task there
    · exact absurd published other
    · exact List.mem_of_getElem? before
  cases inv.moves taken with
  | stays => exact .inl member
  | publishes | unpublishes =>
    rcases List.mem_append.mp member with before | new
    · exact .inl before
    · obtain rfl := List.mem_singleton.mp new
      cases published
  | goes here goes => exact .inl (before (.of here goes.follows _) goes.ne_published there)
  | creates here publishing asking built =>
    refine .inl (before (.ofNamespace here (FunctionStage.follows_of_publishing publishing
      (FunctionStage.publishing_of_built built)) _) ?_ there)
    rintro rfl
    cases asking
  | deletesNamespace here =>
    refine .inl (before (.ofNamespace here rfl _) ?_ there)
    intro impossible
    cases impossible
  | @registers _ k g x here =>
    have advances : Advances s (s.setTask k ⟨g, .published, false⟩) k g .audited .published := .of here rfl s.targets
    obtain ⟨-, _, rfl⟩ | ⟨-, before⟩ := advances.task there
    · exact .inr (inv.keeps_of_published here)
    · exact .inl (List.mem_of_getElem? before)
  | @unregisters _ k g x here =>
    have advances : Advances s (s.setTask k ⟨g, .unpublished, false⟩) k g .unaudited .unpublished := .of here rfl s.targets
    refine .inl (before advances ?_ there)
    intro impossible
    cases impossible

/-- The requests that publish a function, one after the other. -/
def publishes (cmd : PublishFunctionCommand) (id : String) (k : Nat) : List FunctionAction :=
  [.publish cmd id 0 0, .createNamespace k, .createDeployment k, .createService k, .initAudit k, .writeTargets k, .add k]

def sendMails : PublishFunctionCommand := ⟨"send mails", "", "faasnet/mail", "1.0", ""⟩

def convertFiles : PublishFunctionCommand := ⟨"convert files", "", "faasnet/convert", "2.1", ""⟩

def mail : FunctionAggregate := .create sendMails "mail" 0 0

def convert : FunctionAggregate := .create convertFiles "convert" 0 0

/-- A function is published, and unpublished while another one is published. -/
def overlapping : List FunctionAction :=
  publishes convertFiles "convert" 0 ++ [.unpublish "convert", .deleteNamespace 1] ++ publishes sendMails "mail" 2 ++
    [.removeAudit 1, .writeTargets 1, .delete 1]

/-- A request that would change the function is about another one. -/
theorem Stranded.ne (stranded : s.Stranded f) (here : s.tasks[k]? = some ⟨g, a, x⟩) (flies : a.inFlight) (other : a ≠ .found) :
    g.id ≠ f.id :=
  fun same => other (stranded.2.2 _ (List.mem_of_getElem? here) flies same)

/-- The function stays stranded when another request moves on. -/
theorem Stranded.advance (stranded : s.Stranded f) (advances : Advances s t k g a b) (cluster : t.cluster f.id = s.cluster f.id)
    (still : g.id = f.id → b.inFlight → b = .found) : t.Stranded f := by
  obtain ⟨registered, gone, idle⟩ := stranded
  refine ⟨advances.functions ▸ registered, cluster.trans gone, ?_⟩
  intro task member flies same
  obtain ⟨j, there⟩ := List.mem_iff_getElem?.mp member
  obtain ⟨-, _, rfl⟩ | ⟨-, before⟩ := advances.task there
  · exact still same flies
  · exact idle task (List.mem_of_getElem? before) flies same

theorem Stranded.request (stranded : s.Stranded f) (still : g.id = f.id → b = .found) : (s.addTask ⟨g, b, x⟩).Stranded f := by
  obtain ⟨registered, gone, idle⟩ := stranded
  refine ⟨registered, gone, ?_⟩
  intro task member flies same
  rcases List.mem_append.mp member with before | new
  · exact idle task before flies same
  · obtain rfl := List.mem_singleton.mp new
    exact still same

/-- Whatever happens then, the function stays as it is. -/
theorem Stranded.step (inv : s.Consistent) (stranded : s.Stranded f) (fresh : s.Fresh action)
    (taken : s.step path action = some t) : t.Stranded f := by
  cases inv.moves taken with
  | stays => exact stranded
  | publishes cmd id =>
    apply stranded.request
    rintro rfl
    exact absurd (List.mem_map_of_mem stranded.1) fresh.1
  | unpublishes => exact stranded.request fun _ => rfl
  | @goes _ k g a b x y targets here goes =>
    refine stranded.advance (.of here goes.follows _) rfl ?_
    intro same flies
    obtain rfl : a = .found := by
      by_contra other
      exact stranded.ne here (FunctionStage.follows_iff.mp goes.follows).1 other same
    cases goes with
    | givesUp => rfl
    | fails => cases flies
  | @creates _ k g a b x ns here publishing asking built =>
    have other : g.id ≠ f.id := by
      refine stranded.ne here (FunctionStage.inFlight_of_publishing publishing) ?_
      rintro rfl
      cases publishing
    refine stranded.advance (.ofNamespace here (FunctionStage.follows_of_publishing publishing
      (FunctionStage.publishing_of_built built)) _) (Function.update_of_ne other.symm _ _) (absurd · other)
  | @deletesNamespace _ k g x ns here there =>
    have other : g.id ≠ f.id := by
      intro same
      rw [same, stranded.2.1] at there
      cases there
    exact stranded.advance (.ofNamespace here rfl _) (Function.update_of_ne other.symm _ _) (absurd · other)
  | @registers _ k g x here =>
    have other : g.id ≠ f.id := stranded.ne here rfl (by decide)
    have advances : Advances s (s.setTask k ⟨g, .published, false⟩) k g .audited .published := .of here rfl s.targets
    obtain ⟨registered, gone, idle⟩ := stranded.advance advances rfl (absurd · other)
    exact ⟨List.mem_append_left _ registered, gone, idle⟩
  | @unregisters _ k g x here =>
    have other : g.id ≠ f.id := stranded.ne here rfl (by decide)
    have advances : Advances s (s.setTask k ⟨g, .unpublished, false⟩) k g .unaudited .unpublished := .of here rfl s.targets
    obtain ⟨registered, gone, idle⟩ := stranded.advance advances rfl (absurd · other)
    refine ⟨(List.mem_erase_of_ne ?_).mpr registered, gone, idle⟩
    rintro rfl
    exact other rfl

/-- The request that has deleted the namespace was the last one that could delete the function. -/
theorem Consistent.strands (inv : s.Consistent) (here : s.tasks[k]? = some ⟨f, a, x⟩) (deleting : a.deleting) :
    (s.setTask k ⟨f, .failed, x⟩).Stranded f := by
  have flies : a.inFlight := FunctionStage.inFlight_of_unpublishing (FunctionStage.unpublishing_iff.mpr (.inr deleting))
  have advances : Advances s (s.setTask k ⟨f, .failed, x⟩) k f a .failed :=
    .of here (FunctionStage.follows_failed flies) s.targets
  obtain ⟨registered, gone⟩ := inv.deleting k _ here deleting
  refine ⟨registered, gone, ?_⟩
  intro task member flies same
  obtain ⟨j, there⟩ := List.mem_iff_getElem?.mp member
  obtain ⟨-, _, rfl⟩ | ⟨other, before⟩ := advances.task there
  · cases flies
  · rcases Bool.or_eq_true_iff.mp flies with publishing | unpublishing
    · exact absurd same.symm (inv.unregistered j task before publishing f registered)
    · refine (FunctionStage.unpublishing_iff.mp unpublishing).resolve_right fun deletes => ?_
      exact other (inv.oneDeletes j k task _ before here deletes deleting same)

/-- A function whose image nobody can ask for, and that can neither be published again nor unpublished. -/
def Lost (path : Option String) (s : FunctionHost) (f : FunctionAggregate) : Prop :=
  f ∈ s.functions ∧ s.invoke f.id = some (buildFunctionUrl f.id) ∧
    (∀ image, ¬ s.cluster.Runs (buildFunctionUrl f.id) image) ∧
    (∀ cmd id createDateTime updateDateTime, cmd.image = f.image → cmd.version = f.version →
      s.step path (.publish cmd id createDateTime updateDateTime) = some s) ∧
    ∀ (k : Nat) task, s.tasks[k]? = some task → task.function.id = f.id → s.step path (.deleteNamespace k) = none

/-- A stranded function is lost. -/
theorem Stranded.lost (inv : s.Consistent) (stranded : s.Stranded f) : s.Lost path f := by
  obtain ⟨registered, gone, -⟩ := stranded
  refine ⟨registered, invoke_eq registered, inv.not_runs gone, ?_, ?_⟩
  · intro cmd id createDateTime updateDateTime image version
    have known : s.functions.any fun g => g.image = cmd.image && g.version = cmd.version :=
      List.any_eq_true.mpr ⟨f, registered, by simp [image, version]⟩
    exact if_pos known
  · intro k task here same
    simp only [FunctionHost.step, here]
    split
    next g abandoned found =>
      obtain rfl := Option.some.inj found
      rw [show s.cluster g.id = none from same ▸ gone]
    next => rfl

/-- A function whose namespace is being deleted. -/
def halfUnpublished : List FunctionAction :=
  publishes convertFiles "convert" 0 ++ [.unpublish "convert", .deleteNamespace 1]

/-- The file cannot be written. The function is published again, and unpublished again. -/
def retried : List FunctionAction :=
  [.fail 1, .publish convertFiles "other" 5 5, .unpublish "convert", .fail 2]

/-- The file is read when no other request is about to write it. -/
def Apart (s : FunctionHost) : FunctionAction → Prop
  | .initAudit _ | .removeAudit _ => ∀ task ∈ s.tasks, task.stage.auditing = none
  | _ => True

instance : ∀ (s : FunctionHost) action, Decidable (s.Apart action)
  | s, .initAudit _ | s, .removeAudit _ => inferInstanceAs (Decidable (∀ task ∈ s.tasks, task.stage.auditing = none))
  | _, .publish _ _ _ _ | _, .createNamespace _ | _, .createDeployment _ | _, .createService _ | _, .writeTargets _ | _, .add _
  | _, .unpublish _ | _, .deleteNamespace _ | _, .delete _ | _, .giveUp _ | _, .fail _ => inferInstanceAs (Decidable True)

/-- What the file of Prometheus holds, and what the requests that are about to write it have read. -/
structure Monitored (path : Option String) (s : FunctionHost) : Prop where
  registered : ∀ f ∈ s.functions, s.cluster f.id ≠ none → targetOf f.id ∈ getTargets path s.targets
  audited : ∀ task ∈ s.tasks, task.stage = .audited → targetOf task.function.id ∈ getTargets path s.targets
  one : ∀ (j k : Nat) t u, s.tasks[j]? = some t → s.tasks[k]? = some u → t.stage.auditing ≠ none → u.stage.auditing ≠ none →
    j = k
  current : ∀ task ∈ s.tasks, ∀ was, task.stage.auditing = some was → was = getTargets path s.targets
  shaped : ∀ target ∈ getTargets path s.targets, target = targetOf target.job

/-- What is written to the file is read from it. -/
theorem getTargets_updateTargets {path : Option String} (named : isNullOrWhiteSpace path = false)
    (file : Option (List PrometheusTarget)) (targets : List PrometheusTarget) :
    getTargets path (updateTargets path file targets) = targets := by
  simp [getTargets, updateTargets, named]

/-- A request that goes on and leaves the file as it is. -/
theorem Monitored.advance (monitored : s.Monitored path) (advances : Advances s t k f a b) (targets : t.targets = s.targets)
    (cluster : ∀ g ∈ s.functions, t.cluster g.id ≠ none → s.cluster g.id ≠ none) (audited : b ≠ .audited)
    (reads : ∀ was, b.auditing = some was →
      was = getTargets path s.targets ∧ ∀ task ∈ s.tasks, task.stage.auditing = none) : t.Monitored path := by
  have before : ∀ {task}, task ∈ t.tasks → (∃ y, task = ⟨f, b, y⟩) ∨ task ∈ s.tasks := by
    intro task member
    obtain ⟨j, there⟩ := List.mem_iff_getElem?.mp member
    exact (advances.task there).imp And.right fun before => List.mem_of_getElem? before.2
  constructor
  · rw [advances.functions, targets]
    exact fun g member whole => monitored.registered g member (cluster g member whole)
  · rw [targets]
    intro task member stage
    obtain ⟨_, rfl⟩ | old := before member
    · exact absurd stage audited
    · exact monitored.audited task old stage
  · intro i j u v first second mine yours
    obtain ⟨rfl, _, rfl⟩ | ⟨-, first⟩ := advances.task first <;>
      obtain ⟨rfl, _, rfl⟩ | ⟨-, second⟩ := advances.task second
    · rfl
    · obtain ⟨was, reading⟩ := Option.ne_none_iff_exists'.mp mine
      exact absurd ((reads was reading).2 v (List.mem_of_getElem? second)) yours
    · obtain ⟨was, reading⟩ := Option.ne_none_iff_exists'.mp yours
      exact absurd ((reads was reading).2 u (List.mem_of_getElem? first)) mine
    · exact monitored.one i j u v first second mine yours
  · rw [targets]
    intro task member was reading
    obtain ⟨_, rfl⟩ | old := before member
    · exact (reads was reading).1
    · exact monitored.current task old was reading
  · rw [targets]
    exact monitored.shaped

/-- A request writes what it has read, and what it changes of it. -/
theorem Monitored.write (monitored : s.Monitored path) (inv : s.Consistent) (here : s.tasks[k]? = some ⟨f, a, x⟩)
    {was : List PrometheusTarget} (reading : a.auditing = some was) (follows : a.follows b) (quiet : b.auditing = none)
    {targets : Option (List PrometheusTarget)}
    (own : b = .audited → targetOf f.id ∈ getTargets path targets)
    (others : ∀ id, (id = f.id → ¬ a.deleting) → targetOf id ∈ was → targetOf id ∈ getTargets path targets)
    (shaped : ∀ target ∈ getTargets path targets, target ∈ was ∨ target = targetOf f.id) :
    { s.setTask k ⟨f, b, y⟩ with targets := targets }.Monitored path := by
  have advances : Advances s { s.setTask k ⟨f, b, y⟩ with targets := targets } k f a b := .of here follows targets
  have now : was = getTargets path s.targets := monitored.current _ (List.mem_of_getElem? here) was reading
  have busy : a.auditing ≠ none := by simp [reading]
  have alone : ∀ {j u}, j ≠ k → s.tasks[j]? = some u → u.stage.auditing = none := by
    intro j u other there
    by_contra auditing
    exact other (monitored.one j k u _ there here auditing busy)
  constructor
  · intro g member whole
    refine others g.id (fun same deleting => whole ?_) (now ▸ monitored.registered g member whole)
    exact same ▸ (inv.deleting k _ here deleting).2
  · intro task member stage
    obtain ⟨j, there⟩ := List.mem_iff_getElem?.mp member
    obtain ⟨rfl, _, rfl⟩ | ⟨-, old⟩ := advances.task there
    · exact own stage
    · refine others _ (fun same deleting => ?_) (now ▸ monitored.audited task (List.mem_of_getElem? old) stage)
      exact inv.unregistered j task old (stage ▸ rfl) f (inv.deleting k _ here deleting).1 same.symm
  · intro i j u v first second mine yours
    obtain ⟨rfl, _, rfl⟩ | ⟨other, first⟩ := advances.task first
    · exact absurd quiet mine
    · exact absurd (alone other first) mine
  · intro task member was' auditing
    obtain ⟨j, there⟩ := List.mem_iff_getElem?.mp member
    obtain ⟨-, _, rfl⟩ | ⟨other, old⟩ := advances.task there
    · rw [quiet] at auditing
      cases auditing
    · rw [alone other old] at auditing
      cases auditing
  · intro target member
    rcases shaped target member with old | rfl
    · exact monitored.shaped target (now ▸ old)
    · rfl

/-- A new request changes nothing of the file. -/
theorem Monitored.request (monitored : s.Monitored path) (quiet : b.auditing = none) (audited : b ≠ .audited) :
    (s.addTask ⟨g, b, x⟩).Monitored path := by
  have before : ∀ {task}, task ∈ s.tasks ++ [⟨g, b, x⟩] → task ∈ s.tasks ∨ task = ⟨g, b, x⟩ := by
    intro task member
    exact (List.mem_append.mp member).imp_right List.mem_singleton.mp
  refine ⟨monitored.registered, ?_, ?_, ?_, monitored.shaped⟩
  · intro task member stage
    rcases before member with old | rfl
    · exact monitored.audited task old stage
    · exact absurd stage audited
  · intro i j u v first second mine yours
    obtain ⟨rfl, rfl⟩ | first := concat_cases first
    · exact absurd quiet mine
    · obtain ⟨rfl, rfl⟩ | second := concat_cases second
      · exact absurd quiet yours
      · exact monitored.one i j u v first second mine yours
  · intro task member was reading
    rcases before member with old | rfl
    · exact monitored.current task old was reading
    · rw [quiet] at reading
      cases reading

/-- A step outside of the cluster. -/
theorem Monitored.go {targets : Option (List PrometheusTarget)} (named : isNullOrWhiteSpace path = false) (inv : s.Consistent)
    (monitored : s.Monitored path) (apart : s.Apart action) (here : s.tasks[k]? = some ⟨f, a, x⟩)
    (goes : Goes path s.targets f action a b targets) :
    { s.setTask k ⟨f, b, y⟩ with targets := targets }.Monitored path := by
  have advances : Advances s { s.setTask k ⟨f, b, y⟩ with targets := targets } k f a b := .of here goes.follows targets
  cases goes with
  | givesUp asking =>
    refine monitored.advance advances rfl (fun _ _ => id) ?_ ?_
    · rintro rfl
      cases asking
    · intro was reading
      rw [FunctionStage.auditing_of_asking asking] at reading
      cases reading
  | fails =>
    refine monitored.advance advances rfl (fun _ _ => id) (by decide) ?_
    intro was reading
    cases reading
  | initsAudit | removesAudit =>
    refine monitored.advance advances rfl (fun _ _ => id) (by intro impossible; cases impossible) ?_
    intro was reading
    obtain rfl := Option.some.inj reading
    exact ⟨rfl, apart⟩
  | adds was =>
    refine monitored.write inv here rfl rfl rfl ?_ ?_ ?_ <;> simp only [getTargets_updateTargets named]
    · exact fun _ => List.mem_append_right _ List.mem_cons_self
    · exact fun _ _ member => List.mem_append_left _ member
    · intro target member
      exact (List.mem_append.mp member).imp_right List.mem_singleton.mp
  | removes was =>
    refine monitored.write inv here rfl rfl rfl ?_ ?_ ?_ <;> simp only [getTargets_updateTargets named]
    · intro impossible
      cases impossible
    · intro id other member
      have differs : id ≠ f.id := fun same => other same rfl
      exact List.mem_filter.mpr ⟨member, (Bool.not_eq_true' _).mpr (decide_eq_false differs)⟩
    · exact fun target member => .inl (List.mem_filter.mp member).1

/-- Requests that do not write the file at the same time keep every function in it. -/
theorem Monitored.step (named : isNullOrWhiteSpace path = false) (inv : s.Consistent) (monitored : s.Monitored path)
    (apart : s.Apart action) (taken : s.step path action = some t) : t.Monitored path := by
  cases inv.moves taken with
  | stays => exact monitored
  | publishes | unpublishes => exact monitored.request rfl (by decide)
  | goes here goes => exact monitored.go named inv apart here goes
  | @creates _ k f a b x ns here publishing asking built =>
    refine monitored.advance (.ofNamespace here (FunctionStage.follows_of_publishing publishing
      (FunctionStage.publishing_of_built built)) _) rfl ?_ ?_ ?_
    · intro g member
      have other : g.id ≠ f.id := inv.unregistered k _ here publishing g member
      rw [show (s.setNamespace k ⟨f, b, x⟩ (some ns)).cluster g.id = s.cluster g.id from Function.update_of_ne other _ _]
      exact id
    · rintro rfl
      cases asking
    · intro was reading
      rw [FunctionStage.auditing_of_asking asking] at reading
      cases reading
  | @deletesNamespace _ k f x ns here there =>
    refine monitored.advance (.ofNamespace here rfl _) rfl ?_ (by decide) ?_
    · intro g member whole gone
      apply whole
      by_cases own : g.id = f.id
      · exact own ▸ Function.update_self ..
      · exact (Function.update_of_ne own _ _).trans gone
    · intro was reading
      cases reading
  | @registers _ k f x here =>
    have advances : Advances s (s.setTask k ⟨f, .published, false⟩) k f .audited .published := .of here rfl s.targets
    have after : (s.setTask k ⟨f, .published, false⟩).Monitored path :=
      monitored.advance advances rfl (fun _ _ => id) (by decide) fun _ reading => by cases reading
    refine ⟨?_, after.audited, after.one, after.current, after.shaped⟩
    intro g member whole
    rcases List.mem_append.mp member with old | new
    · exact after.registered g old whole
    · obtain rfl := List.mem_singleton.mp new
      exact monitored.audited _ (List.mem_of_getElem? here) rfl
  | @unregisters _ k f x here =>
    have advances : Advances s (s.setTask k ⟨f, .unpublished, false⟩) k f .unaudited .unpublished := .of here rfl s.targets
    have after : (s.setTask k ⟨f, .unpublished, false⟩).Monitored path :=
      monitored.advance advances rfl (fun _ _ => id) (by decide) fun _ reading => by cases reading
    exact ⟨fun g member => after.registered g (List.erase_subset member), after.audited, after.one, after.current,
      after.shaped⟩

/-- Two functions are published at the same time: the file holds one of them. -/
example : ((run (step (some "targets.json")) {} [.publish sendMails "mail" 0 0, .publish convertFiles "convert" 0 0,
    .createNamespace 0, .createDeployment 0, .createService 0, .createNamespace 1, .createDeployment 1, .createService 1,
    .initAudit 0, .initAudit 1, .writeTargets 0, .writeTargets 1, .add 0, .add 1]).map fun t =>
      (t.functions, getTargets (some "targets.json") t.targets)) = some ([mail, convert], [targetOf "convert"]) := by
  decide

end

end FunctionHost

end FaasNet.Functions
