import FaasNet.Lib.Lists
import FaasNet.Lib.Runs
import FaasNet.EventMesh.Messages

/-!
# The configuration of plugins

One file holds whether a plugin is enabled and its options. Enabling leaves the options alone; the handler of updates does
not come to the file at all, for its constructor leaves out the store, and the error for an unknown property is made and
not returned. So what is read is what was set last exactly as long as no update names a plugin that is installed, unless
its value cannot be parsed.
-/

namespace FaasNet.EventMesh.Plugin

open FaasNet.Lib FaasNet.EventMesh.Client

/-! ## Plugins and their options -/

/-- The type of a property: `int`, a generic one (of nodes), `string`, or another one. -/
inductive PropertyType where
  | int
  | generic
  | string
  | other (name : String)
  deriving DecidableEq, Repr

/-- A public property of the options, with the name and the description of its attribute, if it has one, its value in a
new instance, and the text of that. -/
structure OptionProperty (J : Type) where
  propertyType : PropertyType
  entryOption : Option (String × String) := none
  value : J
  defaultValue : Option String := none

/-- A directory of a plugin: its `appsettings.json` and the type of its options. -/
structure InstalledPlugin (J : Type) where
  name : String
  description : String
  properties : List (OptionProperty J)

/-- What is used of .NET: reading a value of a type (`int.Parse`, and the JSON of nodes), a text as a value, the JSON of
options and back, which may throw, and the text of a value. -/
structure SerializationLibrary (J : Type) where
  parse : PropertyType → String → Option J
  ofString : String → J
  serialize : List (OptionProperty J) → List J → J
  deserialize : List (OptionProperty J) → J → Option (List J)
  text : J → String

structure PluginRecord (J : Type) where
  name : String
  isActive : Bool := false
  options : Option J := none

/-- The directories of the three kinds of plugins. -/
structure PluginDirectories (J : Type) where
  protocols : List (InstalledPlugin J) := []
  sinks : List (InstalledPlugin J) := []
  discoveries : List (InstalledPlugin J) := []

/-! ## The store -/

namespace PluginStore
variable {J : Type} (records : List (PluginRecord J))

def getOption (pluginName : String) : Option J := (records.find? (·.name = pluginName)).bind (·.options)

def isActive (pluginName : String) : Bool := records.any fun p => p.name = pluginName ∧ p.isActive

/-- The first record with the name is changed, or a new one added. -/
def updateRecord (pluginName : String) (change : PluginRecord J → PluginRecord J) : List (PluginRecord J) :=
  match records.findIdx? (·.name = pluginName) with
  | none => records ++ [change { name := pluginName }]
  | some k => records.modify k change

def updateOptions (pluginName : String) (options : J) : List (PluginRecord J) :=
  updateRecord records pluginName fun record => { record with options := some options }

def update (pluginName : String) (isEnabled : Bool) : List (PluginRecord J) :=
  updateRecord records pluginName fun record => { record with isActive := isEnabled }

def enable (pluginName : String) : List (PluginRecord J) := update records pluginName true

def disable (pluginName : String) : List (PluginRecord J) := update records pluginName false

end PluginStore

/-! ## The handlers -/

/-- An answer; for an exception the node answers INTERNAL_ERROR. -/
inductive PluginAnswer where
  | updated
  | enabled
  | disabled
  | configuration (records : List (String × String × Option String × String))
  | error (error : Client.Errors)
  deriving DecidableEq, Repr

inductive PluginRequest where
  | update (name propertyName propertyValue : String)
  | enable (name : String)
  | disable (name : String)
  deriving DecidableEq, Repr

inductive UpdateConfigurationResult where
  | UNKNOWNPLUGIN
  | UNKNOWNPROPERTY
  | SUCCESS
  deriving DecidableEq, Repr

section
variable {J : Type} (library : SerializationLibrary J) (directories : PluginDirectories J) (records : List (PluginRecord J))

/-- The first directory of the plugin. -/
def findPlugin (plugins : List (InstalledPlugin J)) (name : String) : Option (InstalledPlugin J) :=
  plugins.find? (·.name = name)

/-- Which of the properties with an attribute is named. -/
def InstalledPlugin.selectedProperty (plugin : InstalledPlugin J) (propertyKey : String) : Option Nat :=
  plugin.properties.findIdx? fun property => property.entryOption.any (·.1 = propertyKey)

/-- The options of a plugin: those stored, or else a new instance. -/
def pluginConfiguration (plugin : InstalledPlugin J) : Option (List J) :=
  match PluginStore.getOption records plugin.name with
  | none => some (plugin.properties.map (·.value))
  | some options => library.deserialize plugin.properties options

/-- `SetValue`. A text is set where the type is neither `int` nor generic, which throws if it is not `string` either. -/
def setValue (property : OptionProperty J) (value : String) : Option J :=
  match property.propertyType with
  | .int => library.parse .int value
  | .generic => library.parse .generic value
  | .string => some (library.ofString value)
  | .other _ => none

/-- `UpdateConfiguration` in the directories of one kind; without a store it throws when it comes to it. -/
def updateConfiguration (pluginStore : Option (List (PluginRecord J))) (plugins : List (InstalledPlugin J))
    (name propertyKey propertyValue : String) : Option (UpdateConfigurationResult × Option (List (PluginRecord J))) :=
  match findPlugin plugins name with
  | none => some (.UNKNOWNPLUGIN, none)
  | some plugin =>
    match plugin.selectedProperty propertyKey with
    | none => some (.UNKNOWNPROPERTY, none)
    | some k => do
      let records ← pluginStore
      let values ← pluginConfiguration library records plugin
      let property ← plugin.properties[k]?
      let value ← setValue library property propertyValue
      let options := library.serialize plugin.properties (values.set k value)
      return (.SUCCESS, some (PluginStore.updateOptions records plugin.name options))

/-- The constructor of the handler is given a store and does not keep it. -/
def UpdatePluginConfigurationMessageHandler.pluginStore (_ : List (PluginRecord J)) : Option (List (PluginRecord J)) := none

/-- `UpdatePluginConfigurationMessageHandler`: the next kind is tried where the plugin is unknown. The error for an unknown
property is not returned. -/
def updatePluginConfiguration (name propertyName propertyValue : String) : Option (PluginAnswer × List (PluginRecord J)) := do
  let store := UpdatePluginConfigurationMessageHandler.pluginStore records
  let mut result ← updateConfiguration library store directories.protocols name propertyName propertyValue
  if result.1 = .UNKNOWNPLUGIN then
    result ← updateConfiguration library store directories.sinks name propertyName propertyValue
    if result.1 = .UNKNOWNPLUGIN then
      result ← updateConfiguration library store directories.discoveries name propertyName propertyValue
  if result.1 = .SUCCESS then return (.updated, result.2.getD records)
  return (.error ⟨"UNKNOWN_PLUGIN"⟩, result.2.getD records)

/-- `EnablePluginMessageHandler`: of the discovery plugins only one is enabled. -/
def enablePlugin (name : String) : PluginAnswer × List (PluginRecord J) :=
  let allPlugins := directories.protocols ++ directories.sinks ++ directories.discoveries
  if (findPlugin allPlugins name).isNone then (.error ⟨"UNKNOWN_PLUGIN"⟩, records)
  else
    let unusedDiscoveryPlugin :=
      if directories.discoveries.any (·.name = name) then directories.discoveries.filter (·.name ≠ name) else []
    let records := unusedDiscoveryPlugin.foldl (fun records plugin => PluginStore.disable records plugin.name) records
    (.enabled, PluginStore.enable records name)

/-- `DisablePluginMessageHandler`. -/
def disablePlugin (name : String) : PluginAnswer × List (PluginRecord J) :=
  let allPlugins := directories.protocols ++ directories.sinks ++ directories.discoveries
  if directories.discoveries.any (·.name = name) then (.error ⟨"CANNOT_DISABLE_DISCOVERY_PLUGIN"⟩, records)
  else if (findPlugin allPlugins name).isNone then (.error ⟨"UNKNOWN_PLUGIN"⟩, records)
  else (.disabled, PluginStore.disable records name)

/-- The answer to a request and the file after it. -/
def handlePlugin : PluginRequest → PluginAnswer × List (PluginRecord J)
  | .update name propertyName propertyValue =>
    (updatePluginConfiguration library directories records name propertyName propertyValue).getD
      (.error ⟨"INTERNAL_ERROR"⟩, records)
  | .enable name => enablePlugin directories records name
  | .disable name => disablePlugin directories records name

/-- `TryExtractConfiguration`: the properties with an attribute and their values. -/
def configurationOf (plugin : InstalledPlugin J) (values : List J) : List (String × String × Option String × String) :=
  (plugin.properties.zip values).filterMap fun (property, value) =>
    property.entryOption.map fun (name, description) => (name, description, property.defaultValue, library.text value)

/-- The plugin of a name: of the protocols, else of the sinks, else of the discoveries. -/
def installed (name : String) : Option (InstalledPlugin J) :=
  (findPlugin directories.protocols name).or
    ((findPlugin directories.sinks name).or (findPlugin directories.discoveries name))

/-- `GetPluginConfigurationMessageHandler`. -/
def getPluginConfiguration (name : String) : PluginAnswer :=
  match installed directories name with
  | none => .error ⟨"UNKNOWN_PLUGIN"⟩
  | some plugin =>
    match pluginConfiguration library records plugin with
    | none => .error ⟨"INTERNAL_ERROR"⟩
    | some values => .configuration (configurationOf library plugin values)

end

/-! ## What should hold -/

section
variable {J : Type} (library : SerializationLibrary J) (directories : PluginDirectories J)

/-- The file, and the requests handled so far. -/
structure Configured (J : Type) where
  records : List (PluginRecord J)
  history : List PluginRequest := []

def step (s : Configured J) (request : PluginRequest) : Option (Configured J) :=
  some ⟨(handlePlugin library directories s.records request).2, s.history ++ [request]⟩

/-- The property of the plugin that a request sets, and the value, if it can be parsed as one of its type. -/
def InstalledPlugin.sets (plugin : InstalledPlugin J) : PluginRequest → Option (Nat × J)
  | .update name propertyName propertyValue =>
    if name = plugin.name then do
      let k ← plugin.selectedProperty propertyName
      let property ← plugin.properties[k]?
      let value ← library.parse property.propertyType propertyValue
      return (k, value)
    else none
  | _ => none

/-- The values that were set last, from those at the start. -/
def lastSet (plugin : InstalledPlugin J) (values : List J) (history : List PluginRequest) : List J :=
  history.foldl (fun values request => (plugin.sets library request).elim values fun set => values.set set.1 set.2) values

/-- What should be read: the values set last, and where none was, those read at the start. -/
def lastConfiguration (start : List (PluginRecord J)) (history : List PluginRequest) (name : String) : PluginAnswer :=
  match installed directories name with
  | none => .error ⟨"UNKNOWN_PLUGIN"⟩
  | some plugin =>
    match pluginConfiguration library start plugin with
    | none => .error ⟨"INTERNAL_ERROR"⟩
    | some values => .configuration (configurationOf library plugin (lastSet library plugin values history))

def ReadsBack (start : List (PluginRecord J)) (s : Configured J) : Prop :=
  ∀ name, getPluginConfiguration library directories s.records name = lastConfiguration library directories start s.history name

/-- An update of a property to a value that can be parsed succeeds; one of an unknown property is answered so and changes
nothing. -/
def Answered (s : Configured J) (name propertyName propertyValue : String) : Prop :=
  ∀ plugin, installed directories name = some plugin →
    match plugin.selectedProperty propertyName with
    | none => handlePlugin library directories s.records (.update name propertyName propertyValue) =
        (.error ⟨"UNKNOWN_PLUGIN_PROPERTY"⟩, s.records)
    | some _ => (plugin.sets library (.update name propertyName propertyValue)).isSome →
        (handlePlugin library directories s.records (.update name propertyName propertyValue)).1 = .updated

/-- What a request does: what was set is read back, an update is answered and leaves the flags as they are. -/
structure Handles (start : List (PluginRecord J)) (s : Configured J) (request : PluginRequest) : Prop where
  readsBack : ∀ t, step library directories s request = some t → ReadsBack library directories start t
  answered : ∀ name propertyName propertyValue, request = .update name propertyName propertyValue →
    Answered library directories s name propertyName propertyValue
  flags : ∀ name propertyName propertyValue, request = .update name propertyName propertyValue →
    ∀ t, step library directories s request = some t → ∀ n, PluginStore.isActive t.records n = PluginStore.isActive s.records n

/-- The condition: no update of an installed plugin, unless it names one of its properties with a value that cannot be
parsed. -/
def SetsNothing (request : PluginRequest) : Prop :=
  ∀ name propertyName propertyValue, request = .update name propertyName propertyValue →
    ∀ plugin, installed directories name = some plugin →
      (plugin.selectedProperty propertyName).isSome ∧ plugin.sets library request = none

end

/-! ## The store and the handlers -/

section
variable {J : Type} {library : SerializationLibrary J} {directories : PluginDirectories J} {records start : List (PluginRecord J)}

theorem getOption_cons (record : PluginRecord J) (records : List (PluginRecord J)) (pluginName : String) :
    PluginStore.getOption (record :: records) pluginName =
      if record.name = pluginName then record.options else PluginStore.getOption records pluginName := by
  rw [PluginStore.getOption, List.find?_cons]
  by_cases here : record.name = pluginName
  · rw [if_pos here, decide_eq_true here]
    rfl
  · rw [if_neg here, decide_eq_false here]
    rfl

theorem getOption_append (records others : List (PluginRecord J)) (pluginName : String) (none : ∀ r ∈ others, r.options = none) :
    PluginStore.getOption (records ++ others) pluginName = PluginStore.getOption records pluginName := by
  induction records with
  | nil =>
    show (others.find? (·.name = pluginName)).bind (·.options) = Option.none
    apply Option.bind_eq_none_iff.mpr
    intro record found
    exact none record (List.mem_of_find?_eq_some found)
  | cons record records ih => rw [List.cons_append, getOption_cons, getOption_cons, ih]

section
variable {change : PluginRecord J → PluginRecord J} (name : ∀ record, (change record).name = record.name)
  (options : ∀ record, (change record).options = record.options)
include name options

theorem getOption_modify (records : List (PluginRecord J)) (k : Nat) (pluginName : String) :
    PluginStore.getOption (records.modify k change) pluginName = PluginStore.getOption records pluginName := by
  induction records generalizing k with
  | nil => rw [List.modify_nil]
  | cons record records ih =>
    cases k with
    | zero => rw [List.modify_zero_cons, getOption_cons, getOption_cons, name, options]
    | succ k => rw [List.modify_succ_cons, getOption_cons, getOption_cons, ih]

/-- A change that keeps the name and the options of a record keeps all options. -/
theorem getOption_updateRecord (records : List (PluginRecord J)) (pluginName other : String) :
    PluginStore.getOption (PluginStore.updateRecord records pluginName change) other = PluginStore.getOption records other := by
  rw [PluginStore.updateRecord]
  cases records.findIdx? (·.name = pluginName) with
  | none =>
    apply getOption_append
    intro record mem
    rw [List.mem_singleton.mp mem, options]
  | some k => exact getOption_modify name options records k other

end

theorem getOption_update (records : List (PluginRecord J)) (pluginName : String) (isEnabled : Bool) (other : String) :
    PluginStore.getOption (PluginStore.update records pluginName isEnabled) other = PluginStore.getOption records other := by
  apply getOption_updateRecord
  · intro record
    rfl
  · intro record
    rfl

theorem getOption_disables (plugins : List (InstalledPlugin J)) (records : List (PluginRecord J)) (other : String) :
    PluginStore.getOption (plugins.foldl (fun records plugin => PluginStore.disable records plugin.name) records) other =
      PluginStore.getOption records other := by
  induction plugins generalizing records with
  | nil => rfl
  | cons plugin plugins ih =>
    rw [List.foldl_cons, ih]
    exact getOption_update records plugin.name false other

/-- What an update comes to in the directories of one kind. -/
theorem updateConfiguration_none (plugins : List (InstalledPlugin J)) (name propertyName propertyValue : String) :
    updateConfiguration library none plugins name propertyName propertyValue =
      match findPlugin plugins name with
      | none => some (.UNKNOWNPLUGIN, none)
      | some plugin => if (plugin.selectedProperty propertyName).isSome then none else some (.UNKNOWNPROPERTY, none) := by
  rw [updateConfiguration]
  cases findPlugin plugins name with
  | none => rfl
  | some plugin =>
    dsimp only
    cases plugin.selectedProperty propertyName <;> rfl

/-- What an update comes to: it never changes the file. -/
theorem handle_update (name propertyName propertyValue : String) :
    handlePlugin library directories records (.update name propertyName propertyValue) =
      (if (installed directories name).any fun plugin => (plugin.selectedProperty propertyName).isSome then
        .error ⟨"INTERNAL_ERROR"⟩ else .error ⟨"UNKNOWN_PLUGIN"⟩, records) := by
  rw [handlePlugin, updatePluginConfiguration, installed]
  simp only [UpdatePluginConfigurationMessageHandler.pluginStore, updateConfiguration_none]
  cases findPlugin directories.protocols name with
  | some plugin => cases found : plugin.selectedProperty propertyName <;> simp [found]
  | none =>
    cases findPlugin directories.sinks name with
    | some plugin => cases found : plugin.selectedProperty propertyName <;> simp [found]
    | none =>
      cases findPlugin directories.discoveries name with
      | some plugin => cases found : plugin.selectedProperty propertyName <;> simp [found]
      | none => simp

theorem getOption_handlePlugin (request : PluginRequest) (name : String) :
    PluginStore.getOption (handlePlugin library directories records request).2 name = PluginStore.getOption records name := by
  cases request with
  | update => rw [handle_update]
  | enable pluginName =>
    rw [handlePlugin, enablePlugin]
    by_cases unknown : (findPlugin (directories.protocols ++ directories.sinks ++ directories.discoveries) pluginName).isNone
    · rw [if_pos unknown]
    · rw [if_neg unknown]
      exact (getOption_update _ pluginName true name).trans (getOption_disables _ records name)
  | disable pluginName =>
    rw [handlePlugin, disablePlugin]
    split_ifs
    · rfl
    · rfl
    · exact getOption_update records pluginName false name

/-! ## Reading back -/

theorem name_of_installed {name : String} {plugin : InstalledPlugin J} (found : installed directories name = some plugin) :
    plugin.name = name := by
  have named : ∀ plugins : List (InstalledPlugin J), findPlugin plugins name = some plugin → plugin.name = name :=
    fun plugins found => by simpa using List.find?_some found
  rw [installed, Option.or_eq_some_iff, Option.or_eq_some_iff] at found
  obtain here | ⟨-, here | ⟨-, here⟩⟩ := found
  · exact named _ here
  · exact named _ here
  · exact named _ here

/-- A request that sets nothing sets no property of an installed plugin. -/
theorem sets_eq_none {request : PluginRequest} (nothing : SetsNothing library directories request) {name : String}
    {plugin : InstalledPlugin J} (found : installed directories name = some plugin) : plugin.sets library request = none := by
  cases request with
  | update n propertyName propertyValue =>
    by_cases own : n = plugin.name
    · apply (nothing n propertyName propertyValue rfl plugin ?_).2
      rw [own, name_of_installed found, found]
    · exact if_neg own
  | enable | disable => rfl

theorem lastSet_of_nothing {history : List PluginRequest}
    (nothing : ∀ request ∈ history, SetsNothing library directories request) {name : String} {plugin : InstalledPlugin J}
    (found : installed directories name = some plugin) (values : List J) : lastSet library plugin values history = values := by
  induction history with
  | nil => rfl
  | cons request history ih =>
    rw [lastSet, List.foldl_cons, sets_eq_none (nothing request List.mem_cons_self) found]
    exact ih fun other mem => nothing other (List.mem_cons_of_mem _ mem)

/-- What is read depends on the options in the file only. -/
theorem getPluginConfiguration_congr (same : ∀ name, PluginStore.getOption records name = PluginStore.getOption start name)
    (name : String) : getPluginConfiguration library directories records name =
      getPluginConfiguration library directories start name := by
  have options : ∀ plugin, pluginConfiguration library records plugin = pluginConfiguration library start plugin := by
    intro plugin
    rw [pluginConfiguration, pluginConfiguration, same]
  rw [getPluginConfiguration, getPluginConfiguration]
  simp only [options]

theorem lastConfiguration_of_nothing {history : List PluginRequest}
    (nothing : ∀ request ∈ history, SetsNothing library directories request) (name : String) :
    lastConfiguration library directories start history name = getPluginConfiguration library directories start name := by
  rw [lastConfiguration, getPluginConfiguration]
  cases found : installed directories name with
  | none => rfl
  | some plugin => simp only [lastSet_of_nothing nothing found]

/-- The options are those of the start, and nothing was set. -/
structure Untouched (library : SerializationLibrary J) (directories : PluginDirectories J) (start : List (PluginRecord J))
    (s : Configured J) : Prop where
  options : ∀ name, PluginStore.getOption s.records name = PluginStore.getOption start name
  nothing : ∀ request ∈ s.history, SetsNothing library directories request

variable {s t : Configured J} {request : PluginRequest}

theorem Untouched.step (untouched : Untouched library directories start s)
    (nothing : SetsNothing library directories request) (stepped : step library directories s request = some t) :
    Untouched library directories start t := by
  obtain rfl := Option.some.inj stepped
  constructor
  · intro name
    rw [getOption_handlePlugin, untouched.options]
  · intro other mem
    rcases List.mem_append.mp mem with earlier | now
    · exact untouched.nothing other earlier
    · rw [List.mem_singleton.mp now]
      exact nothing

theorem Untouched.readsBack (untouched : Untouched library directories start s) : ReadsBack library directories start s := by
  intro name
  rw [lastConfiguration_of_nothing untouched.nothing, getPluginConfiguration_congr untouched.options]

/-- An update of an installed plugin is answered as it should be only if its value cannot be parsed. -/
theorem setsNothing_of_answered {name propertyName propertyValue : String}
    (answered : Answered library directories s name propertyName propertyValue) :
    SetsNothing library directories (.update name propertyName propertyValue) := by
  rintro name propertyName propertyValue ⟨rfl, rfl, rfl⟩ plugin found
  have answer := answered plugin found
  rw [handle_update, found] at answer
  cases selected : plugin.selectedProperty propertyName with
  | none =>
    rw [selected] at answer
    simp [selected] at answer
  | some k =>
    refine ⟨rfl, ?_⟩
    rw [selected] at answer
    by_contra set
    have wrong := answer (Option.isSome_iff_ne_none.mpr set)
    simp [selected] at wrong

/-- A request is handled as it should be exactly if it sets nothing. -/
theorem handles_iff (untouched : Untouched library directories start s) (request : PluginRequest) :
    Handles library directories start s request ↔ SetsNothing library directories request := by
  constructor
  · intro handles
    cases request with
    | update name propertyName propertyValue => exact setsNothing_of_answered (handles.answered _ _ _ rfl)
    | enable | disable => exact fun _ _ _ impossible => (by cases impossible)
  · intro nothing
    constructor
    · intro t stepped
      exact (untouched.step nothing stepped).readsBack
    · rintro name propertyName propertyValue rfl plugin found
      obtain ⟨known, unset⟩ := nothing name propertyName propertyValue rfl plugin found
      obtain ⟨k, selected⟩ := Option.isSome_iff_exists.mp known
      rw [selected]
      intro set
      rw [unset] at set
      cases set
    · rintro name propertyName propertyValue rfl t stepped n
      obtain rfl := Option.some.inj stepped
      rw [handle_update]

/-- Requests handled one after the other read back what was set, with the answers they should have, if and only if none of
them is an update that sets a property or names one that is unknown. -/
theorem along_handles_iff (library : SerializationLibrary J) (directories : PluginDirectories J)
    (start : List (PluginRecord J)) (requests : List PluginRequest) :
    Along (step library directories) (Handles library directories start) ⟨start, []⟩ requests ↔
      ∀ request ∈ requests, SetsNothing library directories request := by
  have total : ∀ s request, (step library directories s request).isSome := fun _ _ => rfl
  rw [← along_iff_forall total]
  apply along_iff_of_invariant (Untouched library directories start)
  · intro s request t untouched nothing stepped
    exact untouched.step nothing stepped
  · intro s request untouched
    exact handles_iff untouched request
  · exact ⟨fun _ => rfl, fun _ mem => (by cases mem)⟩

end

/-! ## The port of AMQP -/

/-- Options as the texts of their values. -/
def textLibrary : SerializationLibrary (List String) where
  parse _ value := some [value]
  ofString value := [value]
  serialize _ values := values.flatten
  deserialize _ options := some (options.map fun value => [value])
  text value := value.headD ""

def protocolAmqp : InstalledPlugin (List String) where
  name := "ProtocolAmqp"
  description := "Support AMQP protocol"
  properties := [{
    propertyType := .int, entryOption := some ("port", "AMQP Port"), value := ["5672"], defaultValue := some "5672" }]

/-- The update of a port is answered with an internal error. -/
theorem not_along_handles_port :
    ¬ Along (step textLibrary { protocols := [protocolAmqp] }) (Handles textLibrary { protocols := [protocolAmqp] } [])
      ⟨[], []⟩ [.update "ProtocolAmqp" "port" "5673"] := by
  intro along
  have answered : (protocolAmqp.sets textLibrary (.update "ProtocolAmqp" "port" "5673")).isSome →
      (handlePlugin textLibrary { protocols := [protocolAmqp] } [] (.update "ProtocolAmqp" "port" "5673")).1 = .updated :=
    along.1.answered "ProtocolAmqp" "port" "5673" rfl protocolAmqp rfl
  revert answered
  decide

end FaasNet.EventMesh.Plugin
