import FaasNet.StateMachine.Frontier

/-!
# Data between states

What a processor answers is stored as a text and read again, by `GetInput` of the next state and by `GetOutput` when a
launch comes by later. The events of the instance read a text as any token, the states read it as a `JObject`, so it is
the objects that go through. The tokens are those of Json.NET: of them we use the type, whether a string has the form
of a date, which the reader makes a date of, and how deep they are nested, which the reader bounds.
-/

namespace FaasNet.StateMachine

open FaasNet.Lib FaasNet.Common FaasNet.Domain
open StateMachineInstanceAggregate (emit)

/-- `JTokenType`, as far as JSON texts have these tokens. -/
inductive JTokenType where
  | Object
  | Array
  | Integer
  | Float
  | String
  | Boolean
  | Null
  | Date
  deriving DecidableEq, Repr

/-- What is used of Json.NET: the type of a token, whether a string in it has the form of a date, and its depth. -/
structure JsonNet (J : Type*) extends RuntimeJson J where
  type : J → JTokenType
  dated : J → Bool
  depth : J → Nat

namespace JsonNet

section
variable {J : Type*}

/-- `JsonReader.MaxDepth`, when it is not set. -/
def maxDepth : Nat := 64

/-- What Json.NET promises. The text of an object or array gives it back, unless it is nested too deep or a string in it
is read as a date; so no such string is in what was read. `JObject.Parse` reads objects only. -/
structure Documented (json : JsonNet J) : Prop where
  parse_toText : ∀ v, json.type v = .Object ∨ json.type v = .Array → json.dated v = false → json.depth v ≤ maxDepth →
    json.parse (json.toText v) = some v
  parse_undated : ∀ text v, json.parse text = some v → json.dated v = false
  parse_shallow : ∀ text v, json.parse text = some v → json.depth v ≤ maxDepth
  parse_blank : ∀ text, isNullOrWhiteSpace (some text) = true → json.parse text = none
  parseObject_eq : ∀ text, json.parseObject text = (json.parse text).filter fun v => json.type v = .Object

/-- An object that its text gives back. -/
def Storable (json : JsonNet J) (v : J) : Prop :=
  json.type v = .Object ∧ json.dated v = false ∧ json.depth v ≤ maxDepth

instance (json : JsonNet J) (v : J) : Decidable (json.Storable v) := inferInstanceAs (Decidable (_ ∧ _))

variable {json : JsonNet J} {v : J}

theorem storable_of_parseObject (law : json.Documented) {text : String} (read : json.parseObject text = some v) :
    json.Storable v := by
  rw [law.parseObject_eq, Option.filter_eq_some_iff] at read
  obtain ⟨read, object⟩ := read
  exact ⟨of_decide_eq_true object, law.parse_undated text v read, law.parse_shallow text v read⟩

theorem Storable.parse (storable : json.Storable v) (law : json.Documented) : json.parse (json.toText v) = some v :=
  law.parse_toText v (.inl storable.1) storable.2.1 storable.2.2

theorem Storable.parseObject (storable : json.Storable v) (law : json.Documented) :
    json.parseObject (json.toText v) = some v := by
  rw [law.parseObject_eq, storable.parse law]
  exact Option.filter_eq_some_iff.mpr ⟨rfl, decide_eq_true storable.1⟩

/-- Its text is not blank. -/
theorem Storable.visible (storable : json.Storable v) (law : json.Documented) :
    isNullOrWhiteSpace (some (json.toText v)) = false := by
  by_contra blank
  have unread := law.parse_blank _ (by simpa using blank)
  rw [storable.parse law] at unread
  cases unread

theorem Storable.get? (storable : json.Storable v) (law : json.Documented) :
    json.get? (some (json.toText v)) = some (some v) := by
  rw [JTokens.get?, storable.visible law, Option.getD_some, storable.parse law]
  rfl

end

end JsonNet

/-! ## `GetInput` and `GetOutput` -/

section
variable {J : Type*}

/-- `StateMachineInstanceState.GetInput`. -/
def RuntimeJson.getInput (json : RuntimeJson J) (state : StateMachineInstanceState) : Option (Option J) :=
  if isNullOrWhiteSpace state.inputStr then some none else (json.parseObject (state.inputStr.getD "")).map some

variable {json : JsonNet J} {v : J} {s : StateMachineInstanceState}

theorem storable_of_getInput (law : json.Documented) (read : json.getInput s = some (some v)) : json.Storable v := by
  unfold RuntimeJson.getInput at read
  split at read
  · cases read
  next =>
    obtain ⟨w, parsed, same⟩ := Option.map_eq_some_iff.mp read
    obtain rfl := Option.some.inj same
    exact JsonNet.storable_of_parseObject law parsed

theorem getInput_of_storable (law : json.Documented) (storable : json.Storable v)
    (input : s.inputStr = some (json.toText v)) : json.getInput s = some (some v) := by
  rw [RuntimeJson.getInput, input, storable.visible law, Option.getD_some, storable.parseObject law]
  rfl

theorem getOutput_of_storable (law : json.Documented) (storable : json.Storable v)
    (output : s.outputStr = some (json.toText v)) : json.getOutput s = some (some v) := by
  rw [RuntimeJson.getOutput, output, storable.visible law, Option.getD_some, storable.parseObject law]
  rfl

end

/-! ## One state and the next -/

section
variable {J : Type*}

/-- What a completed state shows to a launch that comes by: it is not run, and goes on with this output. -/
structure GivesBack (json : RuntimeJson J) (filters : Filters J) (processors : Processors J)
    (s : StateMachineInstanceState) (v : J) : Prop where
  complete : s.status = .COMPLETE
  output : json.getOutput s = some (some v)
  passes : ∀ (env : VisitEnv) (config : LaunchConfig J) (d : StateMachineDefinitionState),
    processState json filters processors env config d s = .inr (config.aggregate, some v, s.nextTransition)

/-- A value goes from a state to the next one unchanged. When a processor has answered with it, the state is completed
and what ends there is terminated, without an exception; the next state is started and run with it as the input; and the
completed state gives it back. -/
structure FlowsThrough (json : RuntimeJson J) (v : J) : Prop where
  completed : ∀ (filters : Filters J) (processors : Processors J) (env : VisitEnv) (visited : Nat)
    (d : StateMachineDefinitionState) (s now : StateMachineInstanceState) (before after : StateMachineInstanceAggregate)
    (output : Option J) (transition : Option String),
    processors visited d s before = (after, .next output transition) → after.state.getState (some s.id) = some now →
    filters.transform output d.stateDataFilterOutput = some (some v) →
    ∃ result new, executeState json filters processors env visited d s before = .inr (result, some v, transition) ∧
      result.state.getState (some s.id) = some new ∧ new.nextTransition = transition ∧
      GivesBack json filters processors new v
  ended : ∀ (filters : Filters J) (processors : Processors J) (env : VisitEnv) (visited : Nat)
    (d : StateMachineDefinitionState) (s now : StateMachineInstanceState) (before after : StateMachineInstanceAggregate)
    (output : Option J),
    processors visited d s before = (after, .end output) → after.state.getState (some s.id) = some now →
    filters.transform output d.stateDataFilterOutput = some (some v) →
    ∃ result new, executeState json filters processors env visited d s before = .inl (result, .ok ()) ∧
      result.state.outputStr = some (json.toText v) ∧ result.state.getState (some s.id) = some new ∧
      GivesBack json filters processors new v
  started : ∀ (filters : Filters J) (processors : Processors J) (env : VisitEnv) (config : LaunchConfig J)
    (d : StateMachineDefinitionState) (s : StateMachineInstanceState),
    s.status = .CREATE → config.aggregate.state.getState (some s.id) = some s →
    filters.transform config.input d.stateDataFilterInput = some (some v) →
    ∃ after new, after.state.getState (some s.id) = some new ∧ json.getInput new = some (some v) ∧
      processState json filters processors env config d s =
        executeState json filters processors env config.visited d new after

end

/-! ## What the commands do with a storable token -/

section
variable {J : Type*} {json : JTokens J} {aggregate : StateMachineInstanceAggregate} {id : String}
  {s : StateMachineInstanceState}

/-- An event that only changes a state which the instance has. -/
theorem emit_turned (env : InstanceEnv) {payload : InstanceEvent}
    (change : StateMachineInstanceState → StateMachineInstanceState)
    (found : aggregate.state.getState (some id) = some s)
    (handled : aggregate.state.handle json { id := env.newGuid, aggregateId := aggregate.state.id, payload } =
      aggregate.state.onState (some id) change)
    (keepsId : ∀ s, (change s).id = s.id) (keepsDefId : ∀ s, (change s).defId = s.defId) :
    ∃ after, emit json aggregate env payload = (after, .ok ()) ∧
      Turned id aggregate.state (change s) after.state ∧ after.state.status = aggregate.state.status := by
  rw [StateMachineInstance.onState, found] at handled
  obtain ⟨after, emits, state⟩ : ∃ after, emit json aggregate env payload = (after, .ok ()) ∧
      after.state = aggregate.state.modifyState (some id) change := by simp [emit, handled]
  refine ⟨after, emits, ?_⟩
  rw [state]
  exact ⟨.of_modifyState found keepsId keepsDefId, rfl⟩

end

section
variable {J : Type*} {json : JsonNet J} {v : J} {aggregate : StateMachineInstanceAggregate} {id : String}
  {s : StateMachineInstanceState}

theorem startState_storable (law : json.Documented) (storable : json.Storable v) (env : InstanceEnv)
    (found : aggregate.state.getState (some id) = some s) :
    ∃ after, StateMachineInstanceAggregate.startState json.toJTokens aggregate env (some id) (some v) = (after, .ok ()) ∧
      Turned id aggregate.state (s.start (json.toText v) env.utcNow) after.state ∧
      after.state.status = aggregate.state.status := by
  refine emit_turned env (·.start (json.toText v) env.utcNow) found ?_ (fun _ => rfl) (fun _ => rfl)
  simp only [StateMachineInstance.handle, Option.map_some, storable.get? law]

theorem completeState_storable (law : json.Documented) (storable : json.Storable v) (env : InstanceEnv)
    (found : aggregate.state.getState (some id) = some s) (transition : Option String) :
    ∃ after, StateMachineInstanceAggregate.completeState json.toJTokens aggregate env (some id) (some v) transition =
        (after, .ok ()) ∧
      Turned id aggregate.state (s.complete (some (json.toText v)) transition env.utcNow) after.state ∧
      after.state.status = aggregate.state.status := by
  refine emit_turned env (·.complete (some (json.toText v)) transition env.utcNow) found ?_ (fun _ => rfl) (fun _ => rfl)
  simp only [StateMachineInstance.handle, Option.map_some, storable.get? law]

theorem terminate_storable (law : json.Documented) (storable : json.Storable v) (env : InstanceEnv) :
    ∃ after, StateMachineInstanceAggregate.terminate json.toJTokens aggregate env (some v) = (after, .ok ()) ∧
      after.state = { aggregate.state.updateState env.utcNow .TERMINATE with outputStr := some (json.toText v) } := by
  apply emit_returns
  simp only [StateMachineInstance.handle, Option.map_some, storable.get? law]

end

/-! ## What goes through -/

section
variable {J : Type*} {json : JsonNet J} {v : J}

theorem givesBack_of_storable (law : json.Documented) (storable : json.Storable v) (filters : Filters J)
    (processors : Processors J) {s : StateMachineInstanceState} (complete : s.status = .COMPLETE)
    (output : s.outputStr = some (json.toText v)) : GivesBack json.toRuntimeJson filters processors s v := by
  have given := getOutput_of_storable law storable output
  refine ⟨complete, given, fun env config d => ?_⟩
  unfold processState
  simp only [complete, given]

theorem JsonNet.Storable.flowsThrough (storable : json.Storable v) (law : json.Documented) :
    FlowsThrough json.toRuntimeJson v := by
  refine ⟨fun filters processors env visited d s now before after output transition answer found transformed => ?_,
    fun filters processors env visited d s now before after output answer found transformed => ?_,
    fun filters processors env config d s created found transformed => ?_⟩
  · obtain ⟨result, completes, turned, -⟩ := completeState_storable law storable env.finish found transition
    refine ⟨result, now.complete (some (json.toText v)) transition env.finish.utcNow, ?_, turned.found, rfl,
      givesBack_of_storable law storable filters processors rfl rfl⟩
    unfold executeState
    simp only [answer, transformed, completes, andThen]
  · obtain ⟨between, completes, turned, -⟩ := completeState_storable law storable env.finish found none
    obtain ⟨result, terminates, state⟩ := @terminate_storable _ _ _ between law storable env.terminate
    refine ⟨result, now.complete (some (json.toText v)) none env.finish.utcNow, ?_, ?_, ?_,
      givesBack_of_storable law storable filters processors rfl rfl⟩
    · unfold executeState
      simp only [answer, transformed, completes, andThen, terminates]
    · rw [state]
    · rw [state]
      exact turned.found
  · obtain ⟨after, starts, turned, -⟩ := startState_storable law storable env.start found
    refine ⟨after, s.start (json.toText v) env.start.utcNow, turned.found, getInput_of_storable law storable rfl, ?_⟩
    unfold processState
    simp only [created, transformed, starts, andThen, turned.found, Option.getD_some]

/-- What a new state is started with and gives back is an object. -/
theorem FlowsThrough.storable (flows : FlowsThrough json.toRuntimeJson v) (law : json.Documented) : json.Storable v := by
  let s : StateMachineInstanceState := { id := "", defId := none }
  let d : StateMachineDefinitionState := { id := "", type := .Inject, flows := [] }
  let env : VisitEnv := ⟨⟨"", "", 0⟩, ⟨"", "", 0⟩, ⟨"", "", 0⟩, ⟨"", "", 0⟩⟩
  obtain ⟨after, new, -, input, -⟩ := flows.started (fun input _ => some input) (fun _ _ _ aggregate => (aggregate, .block))
    env ⟨0, { state := { states := [s] } }, some v, some ""⟩ d s rfl rfl rfl
  exact storable_of_getInput law input

/-- **A value goes from a state to the next one unchanged exactly when it is an object that its text gives back.** -/
theorem flowsThrough_iff (law : json.Documented) (v : J) :
    FlowsThrough json.toRuntimeJson v ↔
      json.type v = .Object ∧ json.dated v = false ∧ json.depth v ≤ JsonNet.maxDepth :=
  ⟨fun flows => flows.storable law, fun storable => JsonNet.Storable.flowsThrough storable law⟩

end

/-! ## Tokens of each type -/

/-- A token of each type that JSON has, and an object with an array in it, with the texts of Json.NET. -/
inductive PlainToken where
  | emptyObject
  | pet
  | emptyArray
  | zero
  | true
  | letter
  | null
  deriving DecidableEq, Repr

namespace PlainToken

def toText : PlainToken → String
  | emptyObject => "\x7b\x7d"
  | pet => "\x7b\"name\":\"Rex\",\"tags\":[\"a\"]\x7d"
  | emptyArray => "[]"
  | zero => "0"
  | true => "True"
  | letter => "a"
  | null => ""

def type : PlainToken → JTokenType
  | emptyObject => .Object
  | pet => .Object
  | emptyArray => .Array
  | zero => .Integer
  | true => .Boolean
  | letter => .String
  | null => .Null

/-- The texts that are read. -/
def texts : List (String × PlainToken) :=
  [("\x7b\x7d", emptyObject), ("\x7b\"name\":\"Rex\",\"tags\":[\"a\"]\x7d", pet), ("[]", emptyArray), ("0", zero),
    ("true", true), ("\"a\"", letter), ("null", null)]

def parse (text : String) : Option PlainToken := (texts.find? fun read => read.1 = text).map (·.2)

end PlainToken

def plainTokens : JsonNet PlainToken where
  toText := PlainToken.toText
  parse := PlainToken.parse
  parseObject text := (PlainToken.parse text).filter fun v => v.type = .Object
  type := PlainToken.type
  dated _ := false
  depth v := if v = .pet then 2 else if v = .emptyObject ∨ v = .emptyArray then 1 else 0

theorem documented_plainTokens : plainTokens.Documented := by
  refine ⟨fun v container _ _ => ?_, fun _ _ _ => rfl, fun _ v _ => ?_, fun text blank => ?_, fun _ => rfl⟩
  · cases v with
    | emptyObject => decide
    | pet => decide
    | emptyArray => decide
    | _ => simp [plainTokens, PlainToken.type] at container
  · cases v <;> decide
  · have written : ∀ read ∈ PlainToken.texts, isNullOrWhiteSpace (some read.1) = false := by decide
    have unread : PlainToken.texts.find? (fun read => read.1 = text) = none := by
      refine List.find?_eq_none.mpr fun read member same => ?_
      obtain rfl := of_decide_eq_true same
      rw [written read member] at blank
      cases blank
    simp only [plainTokens, PlainToken.parse, unread, Option.map_none]

/-- An object with an array in it flows through. -/
theorem flowsThrough_pet : plainTokens.Documented ∧ FlowsThrough plainTokens.toRuntimeJson .pet :=
  ⟨documented_plainTokens, (flowsThrough_iff documented_plainTokens .pet).mpr (by decide)⟩

/-- A state is completed with the empty array and the next one is started with it, but then `GetInput` throws. -/
theorem not_flowsThrough_emptyArray :
    plainTokens.get? (some (plainTokens.toText .emptyArray)) = some (some .emptyArray) ∧
      plainTokens.getInput { id := "", defId := none, inputStr := some (plainTokens.toText .emptyArray) } = none ∧
      ¬ FlowsThrough plainTokens.toRuntimeJson .emptyArray := by
  refine ⟨by decide, by decide, fun flows => ?_⟩
  have object := (flows.storable documented_plainTokens).1
  cases object

end FaasNet.StateMachine
