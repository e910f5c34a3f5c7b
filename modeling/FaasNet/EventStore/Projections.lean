import Mathlib.Data.List.Infix
import FaasNet.Lib.Lists
import FaasNet.EventStore.CommitAggregate

/-!
# Projections

`BaseQueryProjection`: it subscribes to a topic after the offset it has saved, hands each event to its handler and saves
the offset of the event. The consumer of the event store and the repository of the offsets come in two kinds each. An
event is known by its place in the event store, and what was handled is kept beside the state, in the order of the calls.
-/

namespace FaasNet.EventStore

open FaasNet.Lib FaasNet.Domain

/-! ## The repository of the offsets -/

/-- `InMemorySubscriptionRepository.Subscription`. -/
structure Subscription where
  groupId : String
  topicName : String
  offset : Nat
  deriving DecidableEq, Repr

/-- `InMemorySubscriptionRepository` and `EFSubscriptionRepository`. -/
inductive SubscriptionRepository where
  | inMemory
  | entityFramework
  deriving DecidableEq, Repr

namespace SubscriptionRepository

/-- The subscription that is looked for. -/
def isOf (groupId topicName : String) (subscription : Subscription) : Bool :=
  subscription.groupId = groupId ∧ subscription.topicName = topicName

def getCurrentOffset (subscriptions : List Subscription) (groupId topicName : String) : Option Nat :=
  (subscriptions.find? (isOf groupId topicName)).map (·.offset)

/-- `Commit`, which is `none` where it throws. -/
def commit : SubscriptionRepository → List Subscription → String → String → Nat → Option (List Subscription)
  | .inMemory, subscriptions, groupId, topicName, offset =>
    match subscriptions.find? (isOf groupId topicName) with
    | none => none
    | some _ => some (subscriptions ++ [⟨groupId, topicName, offset⟩])
  | .entityFramework, subscriptions, groupId, topicName, offset =>
    match subscriptions.findIdx? (isOf groupId topicName) with
    | none => some (subscriptions ++ [⟨groupId, topicName, offset⟩])
    | some k => some (subscriptions.modify k fun subscription => { subscription with offset })

end SubscriptionRepository

/-! ## The projection -/

/-- `InMemoryEventStoreConsumer` and `EventStoreDBConsumer`. -/
inductive EventStoreConsumer where
  | inMemory
  | eventStoreDB
  deriving DecidableEq, Repr

/-- From `Start` to `Stop`: the variable `offset` of the callback, whether the subscription is there, and, for
EventStoreDB, how many events of the topic it has passed. -/
structure Period where
  offset : Option Nat
  subscribed : Bool
  passed : Nat := 0
  deriving DecidableEq, Repr

/-- The event store, the offsets, the projection, and what was handed to its handler. -/
structure ProjectionState (P : Type*) where
  evts : List (SerializedEvent P)
  saved : List Subscription := []
  period : Option Period := none
  handled : List Nat := []

/-- A projection: its group and its topic, and the kinds of the store and the repository. -/
structure BaseQueryProjection where
  groupId : String
  topic : String
  consumer : EventStoreConsumer
  repository : SubscriptionRepository
  deriving DecidableEq, Repr

namespace BaseQueryProjection

section
variable {P : Type*} (projection : BaseQueryProjection)

/-- The events of a topic by their places, in the order they were appended. -/
def placesOf (evts : List (SerializedEvent P)) (topicName : String) : List Nat :=
  (evts.zipIdx.filter fun e => e.1.topic = topicName).map (·.2)

/-- `InMemoryEventStoreConsumer.Search`; the offset is cast to an `int`, and a negative one skips nothing. -/
def search (evts : List (SerializedEvent P)) (topicName : String) (offset : Option Nat) : List Nat :=
  (((evts.zipIdx.insertionSort fun a b => a.1.creationDateTime ≤ b.1.creationDateTime).filter
    fun e => e.1.topic = topicName).drop (offset.elim 0 fun offset => (Int32.ofNat offset).toInt.toNat)).map (·.2)

/-- The callback of `Start`: the event is handled, the offset goes up and is saved. It says whether it returns. -/
def callback (state : ProjectionState P) (period : Period) (place : Nat) : ProjectionState P × Bool :=
  let offset := period.offset.elim 0 (· + 1)
  let period := { period with offset := some offset }
  let state := { state with handled := state.handled ++ [place], period := some period }
  match projection.repository.commit state.saved projection.groupId projection.topic offset with
  | none => (state, false)
  | some saved => ({ state with saved }, true)

/-- The loop of `InMemoryEventStoreConsumer.Subscribe`, which ends where the callback throws. -/
def callbacks (state : ProjectionState P) (period : Period) : List Nat → ProjectionState P × Bool
  | [] => ({ state with period := some period }, true)
  | place :: places =>
    match projection.callback state period place with
    | (state, false) => (state, false)
    | (state, true) => callbacks state (state.period.getD period) places

/-- Says in the running period whether the subscription is there. -/
def setSubscribed (state : ProjectionState P) (subscribed : Bool) : ProjectionState P :=
  { state with period := state.period.map fun period => { period with subscribed } }

/-- `Start`. A period begins also where it throws, without a subscription. -/
def start (state : ProjectionState P) : ProjectionState P :=
  let offset := SubscriptionRepository.getCurrentOffset state.saved projection.groupId projection.topic
  match projection.consumer with
  | .inMemory =>
    let (state, returns) := projection.callbacks state ⟨offset, false, 0⟩ (search state.evts projection.topic offset)
    setSubscribed state returns
  | .eventStoreDB => { state with period := some ⟨offset, true, offset.elim 0 (· + 1)⟩ }

/-- An event is appended. The in-memory producer calls the callback at once; if that throws, so does `Append`, and the
event and the subscription stay. -/
def append (state : ProjectionState P) (evt : SerializedEvent P) : ProjectionState P :=
  let appended := { state with evts := state.evts ++ [evt] }
  match projection.consumer, state.period with
  | .inMemory, some period =>
    if period.subscribed ∧ evt.topic = projection.topic then (projection.callback appended period state.evts.length).1
    else appended
  | _, _ => appended

/-- EventStoreDB delivers the next event of the subscription. A subscription whose callback throws is dropped. -/
def deliver (state : ProjectionState P) : Option (ProjectionState P) :=
  match projection.consumer, state.period with
  | .eventStoreDB, some period =>
    match (placesOf state.evts projection.topic)[period.passed]? with
    | some place =>
      if period.subscribed then
        let (state, returns) := projection.callback state { period with passed := period.passed + 1 } place
        some (setSubscribed state returns)
      else none
    | none => none
  | _, _ => none

/-- What happens to a projection. -/
inductive Action (P : Type*) where
  | append (evt : SerializedEvent P)
  | start
  | deliver
  | stop

/-- Periods do not overlap, and an event is handled completely before the next action. -/
def step (state : ProjectionState P) : Action P → Option (ProjectionState P)
  | .append evt => some (projection.append state evt)
  | .start => if state.period.isNone then some (projection.start state) else none
  | .deliver => projection.deliver state
  | .stop => if state.period.isSome then some { state with period := none } else none

/-- An event is still to be delivered. -/
def Pending (state : ProjectionState P) : Prop := (projection.deliver state).isSome

/-- Each event of the topic was handled at most once, in order and without a gap; and in a period in which none is still
to be delivered all were. -/
structure HandledOnce (state : ProjectionState P) : Prop where
  inOrder : state.handled <+: placesOf state.evts projection.topic
  all : state.period.isSome → ¬ projection.Pending state → state.handled = placesOf state.evts projection.topic

/-- `Start` finds an empty topic; and with EventStoreDB only the first event of the topic is appended in a period. -/
def Early (state : ProjectionState P) : Action P → Prop
  | .start => placesOf state.evts projection.topic = []
  | .append evt =>
    projection.consumer = .eventStoreDB → evt.topic = projection.topic → state.period.isSome →
      placesOf state.evts projection.topic = []
  | _ => True

end

section
variable {P : Type*} {projection : BaseQueryProjection} {state : ProjectionState P} {period : Period}

theorem placesOf_concat (evts : List (SerializedEvent P)) (evt : SerializedEvent P) (topicName : String) :
    placesOf (evts ++ [evt]) topicName = placesOf evts topicName ++ if evt.topic = topicName then [evts.length] else [] := by
  by_cases same : evt.topic = topicName <;> simp [placesOf, List.zipIdx_append, same]

/-- A topic that is empty is found empty, whatever the times of the other events. -/
theorem search_eq_nil {evts : List (SerializedEvent P)} {topicName : String} (empty : placesOf evts topicName = [])
    (offset : Option Nat) : search evts topicName offset = [] := by
  have none : evts.zipIdx.filter (fun e => e.1.topic = topicName) = [] := List.map_eq_nil_iff.mp empty
  have sorted := (List.perm_insertionSort (fun a b => a.1.creationDateTime ≤ b.1.creationDateTime) evts.zipIdx).filter
    fun e => e.1.topic = topicName
  rw [none] at sorted
  rw [search, List.Perm.eq_nil sorted, List.drop_nil, List.map_nil]

/-! ## With the in-memory repository -/

/-- The event is handled, and nothing is saved. -/
theorem callback_inMemory (inMemory : projection.repository = .inMemory) (unsaved : state.saved = []) (place : Nat) :
    projection.callback state period place =
      ({ state with
          handled := state.handled ++ [place]
          period := some { period with offset := some (period.offset.elim 0 (· + 1)) } }, false) := by
  simp only [callback, inMemory, unsaved, SubscriptionRepository.commit, List.find?_nil]

/-- What holds between actions as long as they are early: nothing is saved; in a period of the in-memory store all events
were handled, and in one of EventStoreDB the topic has one event at most, which drops the subscription. -/
structure Unsaved (projection : BaseQueryProjection) (state : ProjectionState P) : Prop where
  saved : state.saved = []
  inOrder : state.handled <+: placesOf state.evts projection.topic
  inMemory : projection.consumer = .inMemory → ∀ period ∈ state.period,
    period.subscribed ∧ state.handled = placesOf state.evts projection.topic
  eventStoreDB : projection.consumer = .eventStoreDB → ∀ period ∈ state.period,
    (placesOf state.evts projection.topic).length ≤ 1 ∧ (period.subscribed → period.passed = 0 ∧ state.handled = []) ∧
      (¬ period.subscribed → state.handled = placesOf state.evts projection.topic ∧ state.handled ≠ [])

theorem Unsaved.handledOnce (unsaved : Unsaved projection state) : projection.HandledOnce state := by
  refine ⟨unsaved.inOrder, fun running idle => ?_⟩
  obtain ⟨period, running⟩ := Option.isSome_iff_exists.mp running
  cases kind : projection.consumer with
  | inMemory => exact (unsaved.inMemory kind period running).2
  | eventStoreDB =>
    obtain ⟨-, waiting, dropped⟩ := unsaved.eventStoreDB kind period running
    cases subscribed : period.subscribed with
    | false => exact (dropped (by simp [subscribed])).1
    | true =>
      obtain ⟨passed, handled⟩ := waiting subscribed
      cases places : placesOf state.evts projection.topic with
      | nil => exact handled
      | cons place rest => simp [Pending, deliver, kind, running, passed, places, subscribed] at idle

theorem Unsaved.start (unsaved : Unsaved projection state) (empty : placesOf state.evts projection.topic = []) :
    Unsaved projection (projection.start state) := by
  have nothing : state.handled = [] := by simpa [empty] using unsaved.inOrder
  have offset : SubscriptionRepository.getCurrentOffset state.saved projection.groupId projection.topic = none := by
    simp [SubscriptionRepository.getCurrentOffset, unsaved.saved]
  cases kind : projection.consumer with
  | inMemory =>
    have started : projection.start state = { state with period := some ⟨none, true, 0⟩ } := by
      simp [BaseQueryProjection.start, kind, offset, search_eq_nil empty, callbacks, setSubscribed]
    rw [started]
    refine ⟨unsaved.saved, unsaved.inOrder, fun _ period running => ?_, fun other => ?_⟩
    · obtain rfl : ⟨none, true, 0⟩ = period := Option.some.inj running
      exact ⟨rfl, nothing.trans empty.symm⟩
    · exact absurd (kind.symm.trans other) (by decide)
  | eventStoreDB =>
    have started : projection.start state = { state with period := some ⟨none, true, 0⟩ } := by
      simp [BaseQueryProjection.start, kind, offset]
    rw [started]
    refine ⟨unsaved.saved, unsaved.inOrder, fun other => ?_, fun _ period running => ?_⟩
    · exact absurd (kind.symm.trans other) (by decide)
    · obtain rfl : ⟨none, true, 0⟩ = period := Option.some.inj running
      exact ⟨by simp [empty], fun _ => ⟨rfl, nothing⟩, fun dropped => absurd rfl dropped⟩

theorem Unsaved.stop (unsaved : Unsaved projection state) : Unsaved projection { state with period := none } :=
  ⟨unsaved.saved, unsaved.inOrder, fun _ _ running => (nomatch running), fun _ _ running => (nomatch running)⟩

/-- An event that the projection does not see at once. -/
theorem Unsaved.appended (unsaved : Unsaved projection state) (evt : SerializedEvent P)
    (unseen : projection.consumer = .inMemory → state.period.isSome → evt.topic ≠ projection.topic)
    (early : projection.Early state (.append evt)) : Unsaved projection { state with evts := state.evts ++ [evt] } := by
  have longer := placesOf_concat state.evts evt projection.topic
  refine ⟨unsaved.saved, ?_, fun kind period running => ?_, fun kind period running => ?_⟩
  · rw [longer]
    exact unsaved.inOrder.trans (List.prefix_append _ _)
  · have other := unseen kind (Option.isSome_of_eq_some running)
    rw [longer, if_neg other, List.append_nil]
    exact unsaved.inMemory kind period running
  · by_cases same : evt.topic = projection.topic
    · have empty := early kind same (Option.isSome_of_eq_some running)
      obtain ⟨-, waiting, dropped⟩ := unsaved.eventStoreDB kind period running
      rw [longer, if_pos same, empty]
      refine ⟨by simp, waiting, fun gone => ?_⟩
      exact absurd ((dropped gone).1.trans empty) (dropped gone).2
    · rw [longer, if_neg same, List.append_nil]
      exact unsaved.eventStoreDB kind period running

theorem Unsaved.append (unsaved : Unsaved projection state) (repository : projection.repository = .inMemory)
    (evt : SerializedEvent P) (early : projection.Early state (.append evt)) :
    Unsaved projection (projection.append state evt) := by
  cases kind : projection.consumer with
  | eventStoreDB =>
    simp only [BaseQueryProjection.append, kind]
    exact unsaved.appended evt (fun other => absurd (kind.symm.trans other) (by decide)) early
  | inMemory =>
    cases running : state.period with
    | none =>
      simp only [BaseQueryProjection.append, kind, running]
      exact running ▸ unsaved.appended evt (fun _ started => by simp [running] at started) early
    | some period =>
      obtain ⟨subscribed, all⟩ := unsaved.inMemory kind period running
      have longer := placesOf_concat state.evts evt projection.topic
      simp only [BaseQueryProjection.append, kind, running]
      by_cases same : evt.topic = projection.topic
      · rw [if_pos ⟨subscribed, same⟩, callback_inMemory repository (by exact unsaved.saved)]
        rw [if_pos same, ← all] at longer
        refine ⟨unsaved.saved, longer ▸ List.prefix_rfl, fun _ now running => ?_, fun other => ?_⟩
        · obtain rfl := Option.some.inj running
          exact ⟨subscribed, longer.symm⟩
        · exact absurd (kind.symm.trans other) (by decide)
      · rw [if_neg fun both => same both.2]
        exact running ▸ unsaved.appended evt (fun _ _ => same) early

/-- EventStoreDB delivers one event, and the callback throws. -/
theorem Unsaved.deliver (unsaved : Unsaved projection state) (repository : projection.repository = .inMemory)
    {next : ProjectionState P} (delivered : projection.deliver state = some next) : Unsaved projection next := by
  cases kind : projection.consumer with
  | inMemory => simp [BaseQueryProjection.deliver, kind] at delivered
  | eventStoreDB =>
    cases running : state.period with
    | none => simp [BaseQueryProjection.deliver, kind, running] at delivered
    | some period =>
      obtain ⟨short, waiting, -⟩ := unsaved.eventStoreDB kind period running
      cases subscribed : period.subscribed with
      | false =>
        simp only [BaseQueryProjection.deliver, kind, running, subscribed] at delivered
        split at delivered <;> simp at delivered
      | true =>
        obtain ⟨passed, nothing⟩ := waiting subscribed
        cases places : placesOf state.evts projection.topic with
        | nil => simp [BaseQueryProjection.deliver, kind, running, passed, places] at delivered
        | cons place rest =>
          obtain rfl : rest = [] := by simpa [places] using short
          simp only [BaseQueryProjection.deliver, kind, running, passed, places, List.getElem?_cons_zero, subscribed, if_true,
            callback_inMemory repository unsaved.saved, Option.some.injEq] at delivered
          subst delivered
          refine ⟨unsaved.saved, ?_, fun other => ?_, fun _ now running => ?_⟩
          · simp [setSubscribed, places, nothing]
          · exact absurd (kind.symm.trans other) (by decide)
          · obtain rfl := Option.some.inj running
            simp [setSubscribed, places, nothing]

/-- **Projections over the in-memory repository.** Each event is handled exactly once, in order, in every run whose
periods begin with an empty topic. -/
theorem handledOnce_of_early (repository : projection.repository = .inMemory) (evts : List (SerializedEvent P))
    {actions : List (Action P)} (early : Along projection.step projection.Early { evts } actions) :
    Always projection.step projection.HandledOnce { evts } actions := by
  have start : Unsaved projection ({ evts } : ProjectionState P) :=
    ⟨rfl, List.nil_prefix, fun _ _ running => (nomatch running), fun _ _ running => (nomatch running)⟩
  refine (always_of_along ?_ start early).imp fun state => Unsaved.handledOnce
  intro state action next unsaved early taken
  cases action with
  | append evt =>
    obtain rfl := Option.some.inj taken
    exact unsaved.append repository evt early
  | start =>
    obtain ⟨-, rfl⟩ : state.period = none ∧ projection.start state = next := by simpa [step] using taken
    exact unsaved.start early
  | deliver => exact unsaved.deliver repository taken
  | stop =>
    obtain ⟨-, rfl⟩ : state.period.isSome ∧ { state with period := none } = next := by
      simpa only [step, Option.ite_none_right_eq_some, Option.some.injEq] using taken
    exact unsaved.stop

/-! ## With the database of Entity Framework -/

/-- What was saved is read back. -/
theorem getCurrentOffset_commit (subscriptions : List Subscription) (groupId topicName : String) (offset : Nat) :
    ∃ saved, SubscriptionRepository.entityFramework.commit subscriptions groupId topicName offset = some saved ∧
      SubscriptionRepository.getCurrentOffset saved groupId topicName = some offset := by
  simp only [SubscriptionRepository.commit, SubscriptionRepository.getCurrentOffset]
  cases place : subscriptions.findIdx? (SubscriptionRepository.isOf groupId topicName) with
  | none =>
    have none : subscriptions.find? (SubscriptionRepository.isOf groupId topicName) = none := by
      rw [List.find?_eq_none]
      simpa using List.findIdx?_eq_none_iff.mp place
    exact ⟨_, rfl, by simp [List.find?_append, none, SubscriptionRepository.isOf]⟩
  | some k =>
    have changed := @find?_modifyFirst _ (SubscriptionRepository.isOf groupId topicName)
      (fun subscription => { subscription with offset }) (fun _ => rfl) subscriptions
    have found : (subscriptions.find? (SubscriptionRepository.isOf groupId topicName)).isSome := by
      rw [List.find?_isSome]
      have inside := List.findIdx?_isSome.symm.trans (Option.isSome_of_eq_some place)
      simpa using inside
    obtain ⟨old, found⟩ := Option.isSome_iff_exists.mp found
    rw [place, Option.elim_some, found] at changed
    exact ⟨_, rfl, by rw [changed]; rfl⟩

/-- What holds between actions: the offset that is saved is the place in the topic of the event handled last, and a
subscription has passed what was handled. -/
structure Saved (projection : BaseQueryProjection) (state : ProjectionState P) : Prop where
  offset : SubscriptionRepository.getCurrentOffset state.saved projection.groupId projection.topic =
    if state.handled = [] then none else some (state.handled.length - 1)
  inOrder : state.handled <+: placesOf state.evts projection.topic
  passed : ∀ period ∈ state.period, period.subscribed ∧ period.passed = state.handled.length ∧
    period.offset = if state.handled = [] then none else some (state.handled.length - 1)

theorem Saved.handledOnce (saved : Saved projection state) (consumer : projection.consumer = .eventStoreDB) :
    projection.HandledOnce state := by
  refine ⟨saved.inOrder, fun running idle => ?_⟩
  obtain ⟨period, running⟩ := Option.isSome_iff_exists.mp running
  obtain ⟨subscribed, passed, -⟩ := saved.passed period running
  refine saved.inOrder.eq_of_length_le ?_
  by_contra short
  have next : state.handled.length < (placesOf state.evts projection.topic).length := not_le.mp short
  simp [Pending, deliver, consumer, running, subscribed, passed, List.getElem?_eq_getElem next] at idle

/-- The next event is handled, and its offset is saved. -/
theorem Saved.deliver (saved : Saved projection state) (consumer : projection.consumer = .eventStoreDB)
    (repository : projection.repository = .entityFramework) {next : ProjectionState P}
    (delivered : projection.deliver state = some next) : Saved projection next := by
  cases running : state.period with
  | none => simp [BaseQueryProjection.deliver, consumer, running] at delivered
  | some period =>
    obtain ⟨subscribed, passed, offset⟩ := saved.passed period running
    cases found : (placesOf state.evts projection.topic)[state.handled.length]? with
    | none => simp [BaseQueryProjection.deliver, consumer, running, passed, found] at delivered
    | some place =>
      have number : period.offset.elim 0 (· + 1) = state.handled.length := by
        rw [offset]
        cases handled : state.handled with
        | nil => rfl
        | cons first rest => simp
      obtain ⟨committed, commits, reads⟩ :=
        getCurrentOffset_commit state.saved projection.groupId projection.topic state.handled.length
      simp only [BaseQueryProjection.deliver, consumer, running, passed, found, subscribed, if_true, callback, repository,
        number, commits, Option.some.injEq] at delivered
      subst delivered
      refine ⟨by simp [setSubscribed, reads], ?_, fun now running => ?_⟩
      · obtain ⟨inside, rfl⟩ := List.getElem?_eq_some_iff.mp found
        obtain ⟨rest, split⟩ := saved.inOrder
        have known : state.handled = (placesOf state.evts projection.topic).take state.handled.length := by
          rw [← split, List.take_left]
        have longer : state.handled ++ [(placesOf state.evts projection.topic)[state.handled.length]] =
            (placesOf state.evts projection.topic).take (state.handled.length + 1) := by
          rw [List.take_add_one, List.getElem?_eq_getElem inside, ← known]
          rfl
        simp only [setSubscribed, longer]
        exact List.take_prefix _ _
      · obtain rfl := Option.some.inj running
        exact ⟨rfl, by simp [setSubscribed], by simp [setSubscribed]⟩

/-- **Projections over EventStoreDB and the database.** Each event is handled exactly once, in order, in every run. -/
theorem handledOnce_of_database (consumer : projection.consumer = .eventStoreDB)
    (repository : projection.repository = .entityFramework) (evts : List (SerializedEvent P)) (actions : List (Action P)) :
    Always projection.step projection.HandledOnce { evts } actions := by
  have start : Saved projection ({ evts } : ProjectionState P) :=
    ⟨rfl, List.nil_prefix, fun _ running => (nomatch running)⟩
  have any : Along projection.step (fun _ _ => True) ({ evts } : ProjectionState P) actions :=
    along_of_forall fun _ _ _ => trivial
  refine (always_of_along ?_ start any).imp fun state saved => saved.handledOnce consumer
  intro state action next saved _ taken
  cases action with
  | append evt =>
    obtain rfl := Option.some.inj taken
    simp only [append, consumer]
    refine ⟨saved.offset, ?_, saved.passed⟩
    rw [placesOf_concat]
    exact saved.inOrder.trans (List.prefix_append _ _)
  | start =>
    obtain ⟨-, rfl⟩ : state.period = none ∧ projection.start state = next := by simpa [step] using taken
    simp only [BaseQueryProjection.start, consumer, saved.offset]
    refine ⟨saved.offset, saved.inOrder, fun period running => ?_⟩
    obtain rfl := Option.some.inj running
    refine ⟨rfl, ?_, rfl⟩
    cases handled : state.handled with
    | nil => rfl
    | cons first rest => simp
  | deliver => exact saved.deliver consumer repository taken
  | stop =>
    obtain ⟨-, rfl⟩ : state.period.isSome ∧ { state with period := none } = next := by
      simpa only [step, Option.ite_none_right_eq_some, Option.some.injEq] using taken
    exact ⟨saved.offset, saved.inOrder, fun _ running => (nomatch running)⟩

/-! ## The events behind the places -/

theorem placesOf_events (evts : List (SerializedEvent P)) (topicName : String) :
    (evts.filter fun e => e.topic = topicName) = (evts.zipIdx.filter fun e => e.1.topic = topicName).map (·.1) := by
  conv_lhs => rw [← List.zipIdx_map_fst 0 evts]
  rw [List.filter_map]
  rfl

theorem length_placesOf (evts : List (SerializedEvent P)) (topicName : String) :
    (placesOf evts topicName).length = (evts.filter fun e => e.topic = topicName).length := by
  rw [placesOf_events, placesOf, List.length_map, List.length_map]

/-- At a place of the topic is an event of it. -/
theorem event_of_placesOf {evts : List (SerializedEvent P)} {topicName : String} {n place : Nat}
    (found : (placesOf evts topicName)[n]? = some place) :
    ∃ e, evts[place]? = some e ∧ (evts.filter fun e => e.topic = topicName)[n]? = some e := by
  rw [placesOf, List.getElem?_map] at found
  obtain ⟨⟨e, place⟩, there, rfl⟩ := Option.map_eq_some_iff.mp found
  have member := (List.mem_filter.mp (List.mem_of_getElem? there)).1
  refine ⟨e, List.mem_zipIdx_iff_getElem?.mp member, ?_⟩
  rw [placesOf_events, List.getElem?_map, there]
  rfl

theorem placesOf_longer {evts more : List (SerializedEvent P)} (longer : evts <+: more) (topicName : String) :
    placesOf evts topicName <+: placesOf more topicName := by
  obtain ⟨added, rfl⟩ := longer
  rw [placesOf, placesOf, List.zipIdx_append, List.filter_append, List.map_append]
  exact List.prefix_append _ _

/-! ## One step over EventStoreDB and the database -/

theorem Saved.append (saved : Saved projection state) {evts : List (SerializedEvent P)} (longer : state.evts <+: evts) :
    Saved projection { state with evts } :=
  ⟨saved.offset, saved.inOrder.trans (placesOf_longer longer _), saved.passed⟩

theorem Saved.start (saved : Saved projection state) (consumer : projection.consumer = .eventStoreDB) :
    Saved projection (projection.start state) ∧ (projection.start state).evts = state.evts ∧
      (projection.start state).handled = state.handled := by
  let offset := if state.handled = [] then none else some (state.handled.length - 1)
  have started : projection.start state = { state with period := some ⟨offset, true, offset.elim 0 (· + 1)⟩ } := by
    simp only [BaseQueryProjection.start, consumer, saved.offset, offset]
  rw [started]
  refine ⟨⟨saved.offset, saved.inOrder, fun period running => ?_⟩, rfl, rfl⟩
  obtain rfl := Option.some.inj running
  refine ⟨rfl, ?_, rfl⟩
  simp only [offset]
  cases handled : state.handled with
  | nil => rfl
  | cons first rest => simp

theorem Saved.stop (saved : Saved projection state) : Saved projection { state with period := none } :=
  ⟨saved.offset, saved.inOrder, fun _ running => (nomatch running)⟩

/-- What is delivered is the first event that was not handled. -/
theorem Saved.delivered (saved : Saved projection state) (consumer : projection.consumer = .eventStoreDB)
    {next : ProjectionState P} (delivered : projection.deliver state = some next) :
    ∃ place, (placesOf state.evts projection.topic)[state.handled.length]? = some place ∧
      next.handled = state.handled ++ [place] ∧ next.evts = state.evts := by
  cases running : state.period with
  | none => simp [BaseQueryProjection.deliver, consumer, running] at delivered
  | some period =>
    obtain ⟨subscribed, passed, -⟩ := saved.passed period running
    cases found : (placesOf state.evts projection.topic)[state.handled.length]? with
    | none => simp [BaseQueryProjection.deliver, consumer, running, passed, found] at delivered
    | some place =>
      simp only [BaseQueryProjection.deliver, consumer, running, passed, found, subscribed, if_true, Option.some.injEq]
        at delivered
      subst delivered
      refine ⟨place, rfl, ?_, ?_⟩ <;> simp only [callback] <;> split <;> rfl

end

/-- A projection over the in-memory event store and repository. -/
def inMemoryProjection : BaseQueryProjection := ⟨"group", "topic", .inMemory, .inMemory⟩

/-- An event of the topic of the projection. -/
def topicEvent (time : Nat) : SerializedEvent Unit := ⟨"topic", ⟨"evt", none, 0, ()⟩, time⟩

/-- A projection that was started before the first event handles two events. -/
theorem handledOnce_startedFirst :
    Always inMemoryProjection.step inMemoryProjection.HandledOnce { evts := ([] : List (SerializedEvent Unit)) }
      [.start, .append (topicEvent 1), .append (topicEvent 2), .stop] :=
  handledOnce_of_early rfl [] ⟨rfl, fun _ _ => ⟨nofun, fun _ _ => ⟨nofun, fun _ _ => ⟨trivial, fun _ _ => trivial⟩⟩⟩⟩

/-- `Start` on a topic with two events hands over the first one and throws; the second one is never handled. -/
theorem not_handledOnce_startedLater :
    ¬ Always inMemoryProjection.step inMemoryProjection.HandledOnce { evts := ([] : List (SerializedEvent Unit)) }
      [.append (topicEvent 1), .append (topicEvent 2), .start] := by
  intro always
  have last := always.2 _ rfl |>.2 _ rfl |>.2 _ rfl
  exact absurd (last.all rfl nofun) (by decide)

end BaseQueryProjection

end FaasNet.EventStore
