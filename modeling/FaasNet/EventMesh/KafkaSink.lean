import FaasNet.EventMesh.SubscriptionStores

/-!
# The sink of Kafka

`KafkaSinkJob` looks for new topics again and again, and gives those that it finds to a consumer, at the offsets that the
store in RocksDB has for its job. A consumer publishes a message and then increments the offset of its topic. The job stops,
or its process ends, between any two of these, and is started again. So a message below the offset was published, none is
published before those ahead of it, and one is published at most once for each time that the job was started. That is as long
as no consumer of an earlier time still has a message in hand, which `Start` does not look at. A message is known by its
offset.
-/

namespace FaasNet.EventMesh

open FaasNet.Lib

/-! ## The job -/

/-- How far the loop of `ListenTopics` has come with a message. -/
inductive MessageStage where
  | consumed
  | published
  -- `IncrementOffset` has read the offset.
  | read (offset : Int64)
  deriving DecidableEq, Repr

structure HandledMessage where
  topic : String
  offset : Nat
  stage : MessageStage
  deriving DecidableEq, Repr

/-- A call of `ListenTopics`: the next offset of each topic that is assigned, and the message that it handles. One that has
ended with an exception has no topics any more. -/
structure KafkaConsumer where
  positions : List (String × Nat) := []
  handling : Option HandledMessage := none
  deriving DecidableEq, Repr

def KafkaConsumer.topics (c : KafkaConsumer) : List String := c.positions.map (·.1)

/-- Partition 0 of the topics of Kafka, by its end, the store, and the job. Two fields are for the statements only: what was
published, and how often the job was started. -/
structure KafkaSink where
  topics : List String := []
  ends : String → Nat := fun _ => 0
  db : RocksDb := fun _ => none
  running : Bool := false
  subscriptionTopics : List (List String) := []
  consumers : List KafkaConsumer := []
  published : List (String × Nat) := []
  starts : Nat := 0

/-- What happens. A call of `ListenTopic` does not meet another one, since its timer is started again at its end. -/
inductive KafkaSinkAction where
  | createTopic (topic : String)
  | produce (topic : String)
  | start
  | listenTopic
  | consume (k : Nat) (topic : String)
  | publish (k : Nat)
  | readOffset (k : Nat)
  | writeOffset (k : Nat)
  -- The task ends with an exception.
  | fail (k : Nat)
  -- A consumer that has a message in hand goes on with it.
  | stop
  -- The process ends.
  | exit
  deriving DecidableEq, Repr

namespace KafkaSink

section
variable (jobId : String)

/-- `GetAllSubscribedTopics`, the names of it. -/
def subscribedTopics (s : KafkaSink) : List String := s.topics.filter fun t => t ≠ "__consumer_offsets_"

/-- `HasPartition` of one of the records. -/
def hasPartition (s : KafkaSink) (topic : String) : Bool := s.subscriptionTopics.any fun partitions => topic ∈ partitions

def topicNotYetSubscribed (s : KafkaSink) : List String := s.subscribedTopics.filter fun t => !s.hasPartition t

/-- The offset that a topic is assigned at. -/
def assigned (s : KafkaSink) (topic : String) : String × Nat :=
  (topic, (SubscriptionStore.getOffset s.db jobId topic).toInt.toNat)

/-- `ListenTopic`. -/
def listenTopic (s : KafkaSink) : KafkaSink :=
  if s.topicNotYetSubscribed.isEmpty then s
  else
    { s with
      consumers := s.consumers ++ [{ positions := s.topicNotYetSubscribed.map (s.assigned jobId) }]
      subscriptionTopics := s.subscriptionTopics ++ [s.topicNotYetSubscribed] }

/-- `consumer.Consume`, of a topic that has a message left. -/
def consume (s : KafkaSink) (topic : String) (c : KafkaConsumer) : Option KafkaConsumer :=
  match c.handling, c.positions.find? (·.1 = topic) with
  | none, some (_, offset) =>
    if s.running ∧ offset < s.ends topic then
      some ⟨c.positions.map fun position => if position.1 = topic then (topic, offset + 1) else position,
        some ⟨topic, offset, .consumed⟩⟩
    else none
  | _, _ => none

/-- Changes a consumer. -/
def setConsumer (s : KafkaSink) (k : Nat) (c : KafkaConsumer) : KafkaSink := { s with consumers := s.consumers.set k c }

def step (s : KafkaSink) : KafkaSinkAction → Option KafkaSink
  | .createTopic topic => if topic ∈ s.topics then none else some { s with topics := s.topics ++ [topic] }
  | .produce topic =>
    -- The offsets of Kafka are numbers of 64 bits.
    if topic ∈ s.topics ∧ s.ends topic + 1 < 2 ^ 63 then
      some { s with ends := Function.update s.ends topic (s.ends topic + 1) }
    else none
  | .start => if s.running then none else some { s with running := true, subscriptionTopics := [], starts := s.starts + 1 }
  | .listenTopic => if s.running then some (listenTopic jobId s) else none
  | .consume k topic =>
    match s.consumers[k]? with
    | none => none
    | some c => (s.consume topic c).map (s.setConsumer k)
  | .publish k =>
    match s.consumers[k]? with
    | some ⟨positions, some ⟨topic, offset, .consumed⟩⟩ =>
      some { s.setConsumer k ⟨positions, some ⟨topic, offset, .published⟩⟩ with
        published := s.published ++ [(topic, offset)] }
    | _ => none
  | .readOffset k =>
    match s.consumers[k]? with
    | some ⟨positions, some ⟨topic, offset, .published⟩⟩ =>
      some (s.setConsumer k ⟨positions, some ⟨topic, offset, .read (SubscriptionStore.getOffset s.db jobId topic)⟩⟩)
    | _ => none
  | .writeOffset k =>
    match s.consumers[k]? with
    | some ⟨positions, some ⟨topic, _, .read read⟩⟩ =>
      -- The loop ends here when its token is cancelled.
      some { s.setConsumer k ⟨if s.running then positions else [], none⟩ with
        db := SubscriptionStore.putOffset s.db jobId topic read }
    | _ => none
  | .fail k => (s.consumers[k]?).map fun _ => s.setConsumer k {}
  | .stop =>
    -- `Consume` of the others ends with an exception.
    if s.running then
      some { s with running := false, consumers := s.consumers.map fun c => if c.handling = none then {} else c }
    else none
  | .exit => some { s with running := false, consumers := [] }

/-- The job is started when none of its consumers has a message in hand. -/
def Expected (s : KafkaSink) : KafkaSinkAction → Prop
  | .start => ∀ c ∈ s.consumers, c.handling = none
  | _ => True

instance : ∀ (s : KafkaSink) a, Decidable (s.Expected a)
  | s, .start => inferInstanceAs (Decidable (∀ c ∈ s.consumers, c.handling = none))
  | _, .createTopic _ | _, .produce _ | _, .listenTopic | _, .consume _ _ | _, .publish _ | _, .readOffset _
  | _, .writeOffset _ | _, .fail _ | _, .stop | _, .exit => inferInstanceAs (Decidable True)

/-! ## What the sink promises -/

/-- The offset of a topic in the store. -/
def stored (s : KafkaSink) (topic : String) : Int := (SubscriptionStore.getOffset s.db jobId topic).toInt

/-- All topics that the job has found are consumed, and there is nothing left to do. -/
structure Quiet (s : KafkaSink) : Prop where
  running : s.running
  found : s.topicNotYetSubscribed = []
  consumed : ∀ topic, s.hasPartition topic → ∃ c ∈ s.consumers, ∃ p, (topic, p) ∈ c.positions
  idle : ∀ c ∈ s.consumers, c.handling = none ∧ ∀ topic p, (topic, p) ∈ c.positions → s.ends topic ≤ p

/-- The messages below the offset of their topic were published, none was before those ahead of it, a topic has one consumer
at most, and a message is published at most once for each time that the job was started. When there is nothing left to do, all
messages were published. -/
structure AtLeastOnce (s : KafkaSink) : Prop where
  acknowledged : ∀ topic (p : Nat), (p : Int) < s.stored jobId topic → (topic, p) ∈ s.published
  ordered : ∀ before topic p after, s.published = before ++ (topic, p) :: after → ∀ q < p, (topic, q) ∈ before
  repeated : ∀ topic p, s.published.count (topic, p) ≤ s.starts
  oneConsumer : ∀ (j k : Nat) c d topic, s.consumers[j]? = some c → s.consumers[k]? = some d →
    topic ∈ c.topics → topic ∈ d.topics → j = k
  complete : s.Quiet → ∀ topic ∈ s.subscribedTopics, ∀ p < s.ends topic, (topic, p) ∈ s.published

/-! ## The invariant -/

/-- What a consumer has in hand agrees with the store. -/
structure Agrees (s : KafkaSink) (c : KafkaConsumer) : Prop where
  distinct : c.topics.Nodup
  free : ∀ topic p, (topic, p) ∈ c.positions → (∀ h ∈ c.handling, h.topic ≠ topic) → (p : Int) = s.stored jobId topic
  busy : ∀ h ∈ c.handling, (h.topic, h.offset + 1) ∈ c.positions ∧ s.stored jobId h.topic = h.offset ∧
    h.offset < s.ends h.topic
  published : ∀ h ∈ c.handling, h.stage ≠ .consumed → (h.topic, h.offset) ∈ s.published
  read : ∀ h ∈ c.handling, ∀ offset, h.stage = .read offset → offset.toInt = h.offset

/-- The topic is one of the job's, and its consumer has published the message and not yet incremented the offset, or there is
no consumer of it any more. -/
def InDoubt (s : KafkaSink) (topic : String) (p : Nat) : Prop :=
  s.hasPartition topic ∧ ∀ (k : Nat) c, s.consumers[k]? = some c → topic ∈ c.topics →
    ∃ h ∈ c.handling, h.topic = topic ∧ h.offset = p ∧ h.stage ≠ .consumed

/-- What holds between actions. -/
structure Invariant (s : KafkaSink) : Prop where
  bounds : ∀ topic, 0 ≤ s.stored jobId topic ∧ s.stored jobId topic ≤ s.ends topic ∧ s.ends topic < 2 ^ 63
  acknowledged : ∀ topic (p : Nat), (p : Int) < s.stored jobId topic → (topic, p) ∈ s.published
  ordered : ∀ before topic p after, s.published = before ++ (topic, p) :: after → ∀ q < p, (topic, q) ∈ before
  repeated : ∀ topic p, s.published.count (topic, p) ≤ s.starts
  fresh : ∀ topic (p : Nat), s.stored jobId topic ≤ p → ¬ s.InDoubt topic p → s.published.count (topic, p) ≤ s.starts - 1
  oneConsumer : ∀ (j k : Nat) c d topic, s.consumers[j]? = some c → s.consumers[k]? = some d →
    topic ∈ c.topics → topic ∈ d.topics → j = k
  subscribed : ∀ (k : Nat) c, s.consumers[k]? = some c → ∀ topic ∈ c.topics, s.hasPartition topic
  agrees : ∀ (k : Nat) c, s.consumers[k]? = some c → s.Agrees jobId c
  stopped : s.running = false → ∀ (k : Nat) c, s.consumers[k]? = some c → c.handling = none → c.topics = []
  started : s.running ∨ s.consumers ≠ [] → 0 < s.starts
  -- A topic has one name.
  named : s.topics.Nodup

end

section
variable {jobId : String} {s t : KafkaSink} {k : Nat} {c c' : KafkaConsumer}

/-- An offset is stored for its topic only. -/
theorem stored_putOffset (s : KafkaSink) (topic : String) (offset : Int64) (topic' : String) :
    (SubscriptionStore.getOffset (SubscriptionStore.putOffset s.db jobId topic offset) jobId topic').toInt =
      if topic' = topic then (offset + 1).toInt else s.stored jobId topic' := by
  have keys : SubscriptionStore.buildKey jobId topic' = SubscriptionStore.buildKey jobId topic ↔ topic' = topic := by
    rw [← String.toList_inj, Increments.buildKey_toList, Increments.buildKey_toList]
    simp [String.toList_inj]
  rw [Increments.getOffset_putOffset]
  simp only [keys]
  split_ifs <;> rfl

/-- What a consumer knows of its topics is not changed by others. -/
theorem Agrees.frame (agrees : s.Agrees jobId c) (stored : ∀ topic ∈ c.topics, t.stored jobId topic = s.stored jobId topic)
    (ends : ∀ topic, s.ends topic ≤ t.ends topic) (published : s.published ⊆ t.published) : t.Agrees jobId c := by
  have own : ∀ {topic p}, (topic, p) ∈ c.positions → topic ∈ c.topics := fun member => List.mem_map_of_mem member
  refine ⟨agrees.distinct, ?_, ?_, fun h handles late => published (agrees.published h handles late), agrees.read⟩
  · intro topic p member other
    rw [stored topic (own member)]
    exact agrees.free topic p member other
  · intro h handles
    obtain ⟨position, current, inside⟩ := agrees.busy h handles
    refine ⟨position, ?_, inside.trans_le (ends _)⟩
    rw [stored _ (own position)]
    exact current

/-- A consumer that has ended. -/
theorem Agrees.empty : s.Agrees jobId {} := by
  refine ⟨List.nodup_nil, ?_, ?_, ?_, ?_⟩
  · intro topic p member
    cases member
  · intro h handles
    cases handles
  · intro h handles
    cases handles
  · intro h handles
    cases handles

/-- One consumer is changed. -/
structure Changes (s t : KafkaSink) (k : Nat) (c c' : KafkaConsumer) : Prop where
  found : s.consumers[k]? = some c
  consumers : t.consumers = s.consumers.set k c'
  topics : t.topics = s.topics
  ends : t.ends = s.ends
  running : t.running = s.running
  subscriptionTopics : t.subscriptionTopics = s.subscriptionTopics
  starts : t.starts = s.starts
  fewer : c'.topics ⊆ c.topics

/-- Only one consumer has changed. -/
theorem Changes.other (changes : Changes s t k c c') {j : Nat} {d : KafkaConsumer} (there : t.consumers[j]? = some d) :
    (j = k ∧ d = c') ∨ (j ≠ k ∧ s.consumers[j]? = some d) := by
  rw [changes.consumers, List.getElem?_set] at there
  split_ifs at there with same inside
  · exact .inl ⟨same.symm, (Option.some.inj there).symm⟩
  · exact .inr ⟨Ne.symm same, there⟩

/-- A consumer that changes keeps the topics that are assigned. -/
theorem Changes.hasPartition (changes : Changes s t k c c') (topic : String) :
    t.hasPartition topic = s.hasPartition topic := by
  simp only [KafkaSink.hasPartition, changes.subscriptionTopics]

/-- A message in doubt is in doubt after a change of a consumer that it is not a matter of. -/
theorem Changes.inDoubt (changes : Changes s t k c c') {topic : String} {p : Nat}
    (own : topic ∈ c'.topics → (∃ h ∈ c.handling, h.topic = topic ∧ h.offset = p ∧ h.stage ≠ .consumed) →
      ∃ h ∈ c'.handling, h.topic = topic ∧ h.offset = p ∧ h.stage ≠ .consumed)
    (doubt : s.InDoubt topic p) : t.InDoubt topic p := by
  obtain ⟨has, all⟩ := doubt
  refine ⟨(changes.hasPartition topic).trans has, fun j d there mine => ?_⟩
  obtain ⟨rfl, rfl⟩ | ⟨-, before⟩ := changes.other there
  · exact own mine (all _ c changes.found (changes.fewer mine))
  · exact all j d before mine

theorem Invariant.isStarted (inv : s.Invariant jobId) (found : s.consumers[k]? = some c) : 0 < s.starts := by
  refine inv.started (.inr fun none => ?_)
  simp [none] at found

/-- What is left to show after a change of one consumer. -/
theorem Invariant.change (inv : s.Invariant jobId) (changes : Changes s t k c c') (published : s.published ⊆ t.published)
    (stored : ∀ topic, topic ∉ c.topics → t.stored jobId topic = s.stored jobId topic) (agrees : t.Agrees jobId c')
    (bounds : ∀ topic, 0 ≤ t.stored jobId topic ∧ t.stored jobId topic ≤ t.ends topic)
    (acknowledged : ∀ topic (p : Nat), (p : Int) < t.stored jobId topic → (topic, p) ∈ t.published)
    (ordered : ∀ before topic p after, t.published = before ++ (topic, p) :: after → ∀ q < p, (topic, q) ∈ before)
    (repeated : ∀ topic p, t.published.count (topic, p) ≤ t.starts)
    (fresh : ∀ topic (p : Nat), t.stored jobId topic ≤ p → ¬ t.InDoubt topic p → t.published.count (topic, p) ≤ t.starts - 1)
    (stopped : s.running = false → c'.handling = none → c'.topics = []) : t.Invariant jobId := by
  refine ⟨fun topic => ⟨(bounds topic).1, (bounds topic).2, ?_⟩, acknowledged, ordered, repeated, fresh, ?_, ?_, ?_, ?_, ?_, ?_⟩
  · rw [changes.ends]
    exact (inv.bounds topic).2.2
  · intro i j d e topic first second mine yours
    obtain ⟨rfl, rfl⟩ | ⟨-, first⟩ := changes.other first <;> obtain ⟨rfl, rfl⟩ | ⟨-, second⟩ := changes.other second
    · rfl
    · exact inv.oneConsumer _ _ c e topic changes.found second (changes.fewer mine) yours
    · exact inv.oneConsumer _ _ d c topic first changes.found mine (changes.fewer yours)
    · exact inv.oneConsumer _ _ d e topic first second mine yours
  · intro j d there topic mine
    rw [changes.hasPartition]
    obtain ⟨rfl, rfl⟩ | ⟨-, before⟩ := changes.other there
    · exact inv.subscribed _ c changes.found topic (changes.fewer mine)
    · exact inv.subscribed j d before topic mine
  · intro j d there
    obtain ⟨rfl, rfl⟩ | ⟨apart, before⟩ := changes.other there
    · exact agrees
    · refine (inv.agrees j d before).frame (fun topic mine => stored topic fun yours => ?_) (fun topic => ?_) published
      · exact apart (inv.oneConsumer j k d c topic before changes.found mine yours)
      · rw [changes.ends]
  · intro ended j d there idle
    obtain ⟨rfl, rfl⟩ | ⟨-, before⟩ := changes.other there
    · exact stopped (changes.running ▸ ended) idle
    · exact inv.stopped (changes.running ▸ ended) j d before idle
  · rw [changes.starts]
    exact fun _ => inv.isStarted changes.found
  · rw [changes.topics]
    exact inv.named

/-- A change that publishes nothing and writes nothing. -/
theorem Invariant.changeOnly (inv : s.Invariant jobId) (found : s.consumers[k]? = some c) (fewer : c'.topics ⊆ c.topics)
    (agrees : s.Agrees jobId c')
    (doubt : ∀ topic p, topic ∈ c'.topics → (∃ h ∈ c.handling, h.topic = topic ∧ h.offset = p ∧ h.stage ≠ .consumed) →
      ∃ h ∈ c'.handling, h.topic = topic ∧ h.offset = p ∧ h.stage ≠ .consumed)
    (stopped : s.running = false → c'.handling = none → c'.topics = []) : (s.setConsumer k c').Invariant jobId := by
  have changes : Changes s (s.setConsumer k c') k c c' := ⟨found, rfl, rfl, rfl, rfl, rfl, rfl, fewer⟩
  refine inv.change changes (List.Subset.refl _) (fun _ _ => rfl)
    ⟨agrees.distinct, agrees.free, agrees.busy, agrees.published, agrees.read⟩
    (fun topic => ⟨(inv.bounds topic).1, (inv.bounds topic).2.1⟩) inv.acknowledged inv.ordered inv.repeated ?_ stopped
  intro topic p free certain
  exact inv.fresh topic p free (mt (changes.inDoubt (doubt topic p)) certain)

/-! ## The steps of a consumer -/

theorem Invariant.consume (inv : s.Invariant jobId) (found : s.consumers[k]? = some c) {topic : String}
    (consumes : s.consume topic c = some c') : (s.setConsumer k c').Invariant jobId := by
  have agrees := inv.agrees k c found
  unfold KafkaSink.consume at consumes
  split at consumes
  next name offset idle here =>
    obtain ⟨⟨-, left⟩, rfl⟩ : (s.running = true ∧ offset < s.ends topic) ∧ _ = c' := by
      simpa only [Option.ite_none_right_eq_some, Option.some.injEq] using consumes
    obtain rfl : name = topic := by simpa using List.find?_some here
    have position := List.mem_of_find?_eq_some here
    have current : (offset : Int) = s.stored jobId name := agrees.free name offset position (by simp [idle])
    have same : KafkaConsumer.topics ⟨c.positions.map fun position =>
        if position.1 = name then (name, offset + 1) else position, some ⟨name, offset, .consumed⟩⟩ = c.topics := by
      simp only [KafkaConsumer.topics, List.map_map]
      refine List.map_congr_left fun position _ => ?_
      by_cases own : position.1 = name <;> simp [own]
    refine inv.changeOnly found (same ▸ List.Subset.refl _) ⟨same ▸ agrees.distinct, ?_, ?_, ?_, ?_⟩ ?_ ?_
    · intro topic p member other
      obtain ⟨position, before, moved⟩ := List.mem_map.mp member
      have apart : name ≠ topic := other _ rfl
      split_ifs at moved with own
      · exact absurd (congrArg Prod.fst moved) apart
      · subst moved
        exact agrees.free topic p before (by simp [idle])
    · rintro h ⟨rfl⟩
      exact ⟨List.mem_map.mpr ⟨_, position, if_pos rfl⟩, current.symm, left⟩
    · rintro h ⟨rfl⟩ late
      exact absurd rfl late
    · rintro h ⟨rfl⟩ offset read
      cases read
    · rintro topic p - ⟨h, handles, -⟩
      simp [idle] at handles
    · intro _ impossible
      cases impossible
  next => cases consumes

theorem Invariant.fail (inv : s.Invariant jobId) (found : s.consumers[k]? = some c) :
    (s.setConsumer k {}).Invariant jobId := by
  refine inv.changeOnly found (List.nil_subset _) .empty ?_ fun _ _ => rfl
  intro topic p member
  cases member

/-- The message is published for the first time since the job was started. -/
theorem Invariant.publish (inv : s.Invariant jobId) {positions : List (String × Nat)} {topic : String} {offset : Nat}
    (found : s.consumers[k]? = some ⟨positions, some ⟨topic, offset, .consumed⟩⟩) :
    { s.setConsumer k ⟨positions, some ⟨topic, offset, .published⟩⟩ with
      published := s.published ++ [(topic, offset)] }.Invariant jobId := by
  have agrees := inv.agrees k _ found
  obtain ⟨position, current, inside⟩ : (topic, offset + 1) ∈ positions ∧ s.stored jobId topic = offset ∧
    offset < s.ends topic := agrees.busy _ rfl
  have own : topic ∈ positions.map (·.1) := List.mem_map_of_mem position
  have unheard : ∀ p, ¬ s.InDoubt topic p := by
    rintro p ⟨-, all⟩
    obtain ⟨h, ⟨rfl⟩, -, -, late⟩ := all k _ found own
    exact late rfl
  let t : KafkaSink := { s.setConsumer k ⟨positions, some ⟨topic, offset, .published⟩⟩ with
    published := s.published ++ [(topic, offset)] }
  have changes : Changes s t k ⟨positions, some ⟨topic, offset, .consumed⟩⟩ ⟨positions, some ⟨topic, offset, .published⟩⟩ :=
    ⟨found, rfl, rfl, rfl, rfl, rfl, rfl, List.Subset.refl _⟩
  refine inv.change changes (List.subset_append_left _ _) (fun _ _ => rfl) ⟨agrees.distinct, ?_, ?_, ?_, ?_⟩
    (fun topic => ⟨(inv.bounds topic).1, (inv.bounds topic).2.1⟩) ?_ ?_ ?_ ?_ ?_
  · intro topic' p member other
    exact agrees.free topic' p member fun h handles => by
      obtain ⟨rfl⟩ := handles
      exact other ⟨topic, offset, .published⟩ rfl
  · rintro h ⟨rfl⟩
    exact ⟨position, current, inside⟩
  · rintro h ⟨rfl⟩ -
    exact List.mem_append_right _ (List.mem_singleton.mpr rfl)
  · rintro h ⟨rfl⟩ read stage
    cases stage
  · intro topic' p below
    exact List.mem_append_left _ (inv.acknowledged topic' p below)
  · intro before topic' p after split q less
    rcases List.eq_nil_or_concat after with rfl | ⟨rest, last, rfl⟩
    · obtain ⟨rfl, last⟩ := List.append_inj' split rfl
      obtain ⟨rfl, rfl⟩ := Prod.mk.inj (List.singleton_inj.mp last)
      exact inv.acknowledged topic q (by rw [current]; exact_mod_cast less)
    · have all : s.published ++ [(topic, offset)] = (before ++ (topic', p) :: rest) ++ [last] :=
        Eq.trans split (by simp)
      have earlier := (List.append_inj' all rfl).1
      exact inv.ordered before topic' p rest earlier q less
  · intro topic' p
    have count : t.published.count (topic', p) =
        s.published.count (topic', p) + if (topic', p) = (topic, offset) then 1 else 0 := by
      simp only [t, List.count_append, List.count_singleton, beq_iff_eq, @eq_comm _ (topic, offset)]
    rw [count]
    split_ifs with same
    · obtain ⟨rfl, rfl⟩ := Prod.mk.inj same
      have first := inv.fresh topic' p current.le (unheard p)
      have started := inv.isStarted found
      show _ ≤ s.starts
      omega
    · exact inv.repeated topic' p
  · intro topic' p free certain
    have other : (topic', p) ≠ (topic, offset) := by
      rintro same
      obtain ⟨rfl, rfl⟩ := Prod.mk.inj same
      refine certain ⟨inv.subscribed k _ found topic' own, fun j d there mine => ?_⟩
      obtain ⟨rfl, rfl⟩ | ⟨apart, before⟩ := changes.other there
      · exact ⟨_, rfl, rfl, rfl, fun stage => by cases stage⟩
      · exact absurd (inv.oneConsumer j k d _ topic' before found mine own) apart
    have count : t.published.count (topic', p) = s.published.count (topic', p) := by
      simp only [t, List.count_append, List.count_singleton, beq_iff_eq, if_neg (Ne.symm other), Nat.add_zero]
    refine count.trans_le (inv.fresh topic' p free (mt (changes.inDoubt ?_) certain))
    rintro - ⟨h, ⟨rfl⟩, -, -, late⟩
    exact absurd rfl late
  · intro _ impossible
    cases impossible

theorem Invariant.readOffset (inv : s.Invariant jobId) {positions : List (String × Nat)} {topic : String} {offset : Nat}
    (found : s.consumers[k]? = some ⟨positions, some ⟨topic, offset, .published⟩⟩) :
    (s.setConsumer k ⟨positions, some ⟨topic, offset,
      .read (SubscriptionStore.getOffset s.db jobId topic)⟩⟩).Invariant jobId := by
  have agrees := inv.agrees k _ found
  obtain ⟨position, current, inside⟩ : (topic, offset + 1) ∈ positions ∧ s.stored jobId topic = offset ∧
    offset < s.ends topic := agrees.busy _ rfl
  refine inv.changeOnly found (List.Subset.refl _) ⟨agrees.distinct, ?_, ?_, ?_, ?_⟩ ?_ ?_
  · intro topic' p member other
    exact agrees.free topic' p member fun h handles => by
      obtain ⟨rfl⟩ := handles
      exact other ⟨topic, offset, .read _⟩ rfl
  · rintro h ⟨rfl⟩
    exact ⟨position, current, inside⟩
  · rintro h ⟨rfl⟩ -
    exact agrees.published ⟨topic, offset, .published⟩ rfl fun stage => by cases stage
  · rintro h ⟨rfl⟩ read ⟨rfl⟩
    exact current
  · rintro topic' p - ⟨h, ⟨rfl⟩, same, at', -⟩
    exact ⟨_, rfl, same, at', fun stage => by cases stage⟩
  · intro _ impossible
    cases impossible

/-- The offset goes past the message that was published. -/
theorem Invariant.writeOffset (inv : s.Invariant jobId) {positions : List (String × Nat)} {topic : String} {offset : Nat}
    {read : Int64} (found : s.consumers[k]? = some ⟨positions, some ⟨topic, offset, .read read⟩⟩) :
    { s.setConsumer k ⟨if s.running then positions else [], none⟩ with
      db := SubscriptionStore.putOffset s.db jobId topic read }.Invariant jobId := by
  have agrees := inv.agrees k _ found
  obtain ⟨position, current, inside⟩ : (topic, offset + 1) ∈ positions ∧ s.stored jobId topic = offset ∧
    offset < s.ends topic := agrees.busy _ rfl
  have value : read.toInt = offset := agrees.read _ rfl read rfl
  have acknowledged := agrees.published _ rfl fun stage => by cases stage
  have own : topic ∈ positions.map (·.1) := List.mem_map_of_mem position
  have next : (read + 1).toInt = offset + 1 := by
    have room := (inv.bounds topic).2.2
    rw [Increments.toInt_succ (by omega) (by omega), value]
  -- The consumer keeps its topics, unless the job has stopped.
  have kept : (if s.running then positions else []).Sublist positions := by
    split_ifs
    · exact List.Sublist.refl positions
    · exact List.nil_sublist positions
  let t : KafkaSink := { s.setConsumer k ⟨if s.running then positions else [], none⟩ with
    db := SubscriptionStore.putOffset s.db jobId topic read }
  have stored : ∀ topic', t.stored jobId topic' = if topic' = topic then (offset : Int) + 1 else s.stored jobId topic' := by
    intro topic'
    rw [← next]
    exact stored_putOffset s topic read topic'
  have changes : Changes s t k ⟨positions, some ⟨topic, offset, .read read⟩⟩
      ⟨if s.running then positions else [], none⟩ :=
    ⟨found, rfl, rfl, rfl, rfl, rfl, rfl, (kept.map _).subset⟩
  refine inv.change changes (List.Subset.refl _) ?_ ⟨agrees.distinct.sublist (kept.map _), ?_, ?_, ?_, ?_⟩ ?_ ?_ inv.ordered
    inv.repeated ?_ ?_
  · intro topic' other
    rw [stored, if_neg]
    rintro rfl
    exact other own
  · intro topic' p remaining _
    have member := kept.subset remaining
    rw [stored]
    split_ifs with same
    · subst same
      have both : (topic', p) = (topic', offset + 1) := List.inj_on_of_nodup_map agrees.distinct member position rfl
      rw [(Prod.mk.inj both).2]
      push_cast
      rfl
    · refine agrees.free topic' p member ?_
      rintro h ⟨rfl⟩
      exact Ne.symm same
  · intro h handles
    cases handles
  · intro h handles
    cases handles
  · intro h handles
    cases handles
  · intro topic'
    obtain ⟨nonneg, le, -⟩ := inv.bounds topic'
    rw [stored]
    by_cases same : topic' = topic
    · subst same
      rw [if_pos rfl]
      refine ⟨by omega, ?_⟩
      exact_mod_cast Nat.succ_le_of_lt inside
    · rw [if_neg same]
      exact ⟨nonneg, le⟩
  · intro topic' p below
    rw [stored] at below
    split_ifs at below with same
    · subst same
      rcases Nat.lt_succ_iff_lt_or_eq.mp (by exact_mod_cast below : p < offset + 1) with less | rfl
      · exact inv.acknowledged topic' p (by rw [current]; exact_mod_cast less)
      · exact acknowledged
    · exact inv.acknowledged topic' p below
  · intro topic' p free certain
    rw [stored] at free
    by_cases same : topic' = topic
    · subst same
      rw [if_pos rfl] at free
      refine inv.fresh topic' p (by rw [current]; omega) ?_
      rintro ⟨-, all⟩
      obtain ⟨h, ⟨rfl⟩, -, at', -⟩ := all k _ found own
      have at' : offset = p := at'
      omega
    · rw [if_neg same] at free
      refine inv.fresh topic' p free (mt (changes.inDoubt ?_) certain)
      rintro - ⟨h, ⟨rfl⟩, here, -⟩
      exact absurd here.symm same
  · intro stopped _
    simp only [KafkaConsumer.topics, stopped]
    rfl

/-! ## The steps of the job -/

theorem Invariant.start : Invariant jobId ({} : KafkaSink) := by
  have nothing : ∀ topic, ({} : KafkaSink).stored jobId topic = 0 := fun topic => rfl
  refine ⟨fun topic => ⟨le_refl 0, le_refl 0, Nat.two_pow_pos 63⟩, ?_, ?_, ?_, ?_, ?_, ?_, ?_, ?_, ?_, List.nodup_nil⟩
  · intro topic p below
    rw [nothing] at below
    omega
  · intro before topic p after split
    simp at split
  · exact fun _ _ => Nat.zero_le _
  · exact fun _ _ _ _ => Nat.zero_le _
  · intro j k c d topic first
    cases first
  · intro k c found
    cases found
  · intro k c found
    cases found
  · intro _ k c found
    cases found
  · rintro (running | some)
    · cases running
    · exact absurd rfl some

theorem Invariant.createTopic (inv : s.Invariant jobId) {topic : String} (new : topic ∉ s.topics) :
    { s with topics := s.topics ++ [topic] }.Invariant jobId :=
  { inv with
    agrees := fun k c found => (inv.agrees k c found).frame (fun _ _ => rfl) (fun _ => le_refl _) (List.Subset.refl _)
    named := List.nodup_append.mpr ⟨inv.named, List.nodup_singleton topic, fun a member b other => by
      rintro rfl
      exact new (List.mem_singleton.mp other ▸ member)⟩ }

theorem Invariant.produce (inv : s.Invariant jobId) {topic : String} (room : s.ends topic + 1 < 2 ^ 63) :
    { s with ends := Function.update s.ends topic (s.ends topic + 1) }.Invariant jobId := by
  have longer : ∀ topic', s.ends topic' ≤ Function.update s.ends topic (s.ends topic + 1) topic' := by
    intro topic'
    rw [Function.update_apply]
    split_ifs with same
    · rw [same]
      exact Nat.le_succ _
    · exact le_refl _
  refine { inv with
    bounds := fun topic' => ⟨(inv.bounds topic').1, (inv.bounds topic').2.1.trans (by exact_mod_cast longer topic'), ?_⟩
    agrees := fun k c found => (inv.agrees k c found).frame (fun _ _ => rfl) longer (List.Subset.refl _) }
  simp only [Function.update_apply]
  split_ifs
  · exact room
  · exact (inv.bounds topic').2.2

/-- A job that is started knows no topics, and no consumer of an earlier time has any. -/
theorem Invariant.startJob (inv : s.Invariant jobId) (stopped : s.running = false)
    (idle : ∀ c ∈ s.consumers, c.handling = none) :
    { s with running := true, subscriptionTopics := [], starts := s.starts + 1 }.Invariant jobId := by
  have none : ∀ (k : Nat) c, s.consumers[k]? = some c → c.topics = [] := fun k c found =>
    inv.stopped stopped k c found (idle c (List.mem_of_getElem? found))
  refine { inv with
    repeated := fun topic p => (inv.repeated topic p).trans (Nat.le_succ _)
    fresh := fun topic p _ _ => inv.repeated topic p
    subscribed := fun k c found topic mine => ?_
    agrees := fun k c found => (inv.agrees k c found).frame (fun _ _ => rfl) (fun _ => le_refl _) (List.Subset.refl _)
    stopped := fun impossible => ?_
    started := fun _ => Nat.succ_pos _ }
  · rw [none k c found] at mine
    cases mine
  · cases impossible

/-- A consumer that has no message in hand ends. -/
theorem Invariant.stopJob (inv : s.Invariant jobId) :
    { s with
      running := false
      consumers := s.consumers.map fun c : KafkaConsumer => if c.handling = none then {} else c }.Invariant jobId := by
  have before : ∀ {k : Nat} {d : KafkaConsumer},
      (s.consumers.map fun c => if c.handling = none then {} else c)[k]? = some d →
        ∃ c, s.consumers[k]? = some c ∧ (d = {} ∨ d = c ∧ d.handling ≠ none) := by
    intro k d there
    rw [List.getElem?_map] at there
    obtain ⟨c, found, rfl⟩ := Option.map_eq_some_iff.mp there
    refine ⟨c, found, ?_⟩
    split_ifs with idle
    · exact .inl rfl
    · exact .inr ⟨rfl, idle⟩
  have own : ∀ {d c : KafkaConsumer} {topic}, d = {} ∨ d = c ∧ d.handling ≠ none → topic ∈ d.topics → topic ∈ c.topics := by
    rintro d c topic (rfl | ⟨rfl, -⟩) mine
    · cases mine
    · exact mine
  refine { inv with
    fresh := fun topic p free certain => inv.fresh topic p free fun doubt => certain ⟨doubt.1, fun k d there mine => ?_⟩
    oneConsumer := fun j k c d topic first second mine yours => ?_
    subscribed := fun k d there topic mine => ?_
    agrees := fun k d there => ?_
    stopped := fun _ k d there idle => ?_
    started := fun some => inv.started (.inr ?_) }
  · obtain ⟨c, found, rfl | ⟨rfl, -⟩⟩ := before there
    · cases mine
    · exact doubt.2 k _ found mine
  · obtain ⟨c', first, left⟩ := before first
    obtain ⟨d', second, right⟩ := before second
    exact inv.oneConsumer j k c' d' topic first second (own left mine) (own right yours)
  · obtain ⟨c, found, left⟩ := before there
    exact inv.subscribed k c found topic (own left mine)
  · obtain ⟨c, found, rfl | ⟨rfl, -⟩⟩ := before there
    · exact .empty
    · exact (inv.agrees k _ found).frame (fun _ _ => rfl) (fun _ => le_refl _) (List.Subset.refl _)
  · obtain ⟨c, -, rfl | ⟨rfl, busy⟩⟩ := before there
    · rfl
    · exact absurd idle busy
  · obtain running | some := some
    · cases running
    · simpa using some

theorem Invariant.exit (inv : s.Invariant jobId) : { s with running := false, consumers := [] }.Invariant jobId := by
  refine { inv with
    fresh := fun topic p free certain => inv.fresh topic p free fun doubt => certain ⟨doubt.1, fun k d there => ?_⟩
    oneConsumer := fun j k c d topic first => ?_
    subscribed := fun k c found => ?_
    agrees := fun k c found => ?_
    stopped := fun _ k c found => ?_
    started := fun some => ?_ }
  · simp at there
  · simp at first
  · simp at found
  · simp at found
  · simp at found
  · simp at some

/-- Each topic is subscribed once. -/
theorem nodup_topicNotYetSubscribed (inv : s.Invariant jobId) : s.topicNotYetSubscribed.Nodup :=
  (inv.named.filter _).filter _

/-- The topics that no consumer has are given to a new one. -/
theorem Invariant.listenTopic (inv : s.Invariant jobId) (running : s.running) : (s.listenTopic jobId).Invariant jobId := by
  unfold KafkaSink.listenTopic
  split_ifs with empty
  · exact inv
  let new : KafkaConsumer := { positions := s.topicNotYetSubscribed.map (s.assigned jobId) }
  have topics : new.topics = s.topicNotYetSubscribed := by
    simp only [KafkaConsumer.topics, new, List.map_map]
    exact List.map_id' _
  have unknown : ∀ topic ∈ new.topics, s.hasPartition topic = false := by
    intro topic member
    rw [topics] at member
    simpa using (List.mem_filter.mp member).2
  have at' : ∀ {j : Nat} {d : KafkaConsumer}, (s.consumers ++ [new])[j]? = some d →
      (j = s.consumers.length ∧ d = new) ∨ s.consumers[j]? = some d := by
    intro j d there
    rw [List.getElem?_append] at there
    split_ifs at there with inside
    · exact .inr there
    · rw [List.getElem?_singleton] at there
      split_ifs at there with zero
      exact .inl ⟨by omega, (Option.some.inj there).symm⟩
  have more : ∀ topic, s.hasPartition topic → (s.subscriptionTopics ++ [s.topicNotYetSubscribed]).any (topic ∈ ·) := by
    intro topic has
    rw [List.any_append]
    exact Bool.or_eq_true_iff.mpr (.inl has)
  refine { inv with
    fresh := fun topic p free certain => inv.fresh topic p free fun doubt => certain ?_
    oneConsumer := fun i j d e topic first second mine yours => ?_
    subscribed := fun j d there topic mine => ?_
    agrees := fun j d there => ?_
    stopped := fun stopped => ?_
    started := fun _ => inv.started (.inl running) }
  · obtain ⟨has, all⟩ := doubt
    refine ⟨more topic has, fun j d there mine => ?_⟩
    obtain ⟨-, rfl⟩ | before := at' there
    · exact absurd has (by rw [unknown topic mine]; exact Bool.false_ne_true)
    · exact all j d before mine
  · obtain ⟨rfl, rfl⟩ | first := at' first <;> obtain ⟨rfl, rfl⟩ | second := at' second
    · rfl
    · exact absurd (inv.subscribed j e second topic yours) (by rw [unknown topic mine]; exact Bool.false_ne_true)
    · exact absurd (inv.subscribed i d first topic mine) (by rw [unknown topic yours]; exact Bool.false_ne_true)
    · exact inv.oneConsumer i j d e topic first second mine yours
  · obtain ⟨-, rfl⟩ | before := at' there
    · rw [topics] at mine
      show (s.subscriptionTopics ++ [s.topicNotYetSubscribed]).any (topic ∈ ·) = true
      rw [List.any_append]
      exact Bool.or_eq_true_iff.mpr (.inr (by simpa using mine))
    · exact more topic (inv.subscribed j d before topic mine)
  · obtain ⟨-, rfl⟩ | before := at' there
    · refine ⟨topics ▸ nodup_topicNotYetSubscribed inv, ?_, ?_, ?_, ?_⟩
      · intro topic p member _
        obtain ⟨name, -, here⟩ := List.mem_map.mp member
        obtain ⟨rfl, rfl⟩ := Prod.mk.inj here
        exact Int.toNat_of_nonneg (inv.bounds name).1
      · intro h handles
        cases handles
      · intro h handles
        cases handles
      · intro h handles
        cases handles
    · exact (inv.agrees j d before).frame (fun _ _ => rfl) (fun _ => le_refl _) (List.Subset.refl _)
  · rw [running] at stopped
    cases stopped

/-! ## Every run -/

/-- Each step keeps the invariant. -/
theorem Invariant.step {a : KafkaSinkAction} (inv : s.Invariant jobId) (expected : s.Expected a)
    (taken : s.step jobId a = some t) : t.Invariant jobId := by
  cases a with
  | createTopic topic =>
    obtain ⟨new, rfl⟩ : topic ∉ s.topics ∧ _ = t := by
      simpa only [KafkaSink.step, Option.ite_none_left_eq_some, Option.some.injEq] using taken
    exact inv.createTopic new
  | produce topic =>
    obtain ⟨⟨-, room⟩, rfl⟩ : (topic ∈ s.topics ∧ s.ends topic + 1 < 2 ^ 63) ∧ _ = t := by
      simpa only [KafkaSink.step, Option.ite_none_right_eq_some, Option.some.injEq] using taken
    exact inv.produce room
  | start =>
    obtain ⟨stopped, rfl⟩ : ¬ s.running = true ∧ _ = t := by
      simpa only [KafkaSink.step, Option.ite_none_left_eq_some, Option.some.injEq] using taken
    exact inv.startJob (Bool.eq_false_iff.mpr stopped) expected
  | listenTopic =>
    obtain ⟨running, rfl⟩ : s.running = true ∧ _ = t := by
      simpa only [KafkaSink.step, Option.ite_none_right_eq_some, Option.some.injEq] using taken
    exact inv.listenTopic running
  | consume k topic =>
    simp only [KafkaSink.step] at taken
    split at taken
    next => cases taken
    next c found =>
      obtain ⟨c', consumes, rfl⟩ := Option.map_eq_some_iff.mp taken
      exact inv.consume found consumes
  | publish k =>
    simp only [KafkaSink.step] at taken
    split at taken
    next positions topic offset found =>
      obtain rfl := Option.some.inj taken
      exact inv.publish found
    next => cases taken
  | readOffset k =>
    simp only [KafkaSink.step] at taken
    split at taken
    next positions topic offset found =>
      obtain rfl := Option.some.inj taken
      exact inv.readOffset found
    next => cases taken
  | writeOffset k =>
    simp only [KafkaSink.step] at taken
    split at taken
    next positions topic offset read found =>
      obtain rfl := Option.some.inj taken
      exact inv.writeOffset found
    next => cases taken
  | fail k =>
    obtain ⟨c, found, rfl⟩ := Option.map_eq_some_iff.mp taken
    exact inv.fail found
  | stop =>
    obtain ⟨-, rfl⟩ : s.running = true ∧ _ = t := by
      simpa only [KafkaSink.step, Option.ite_none_right_eq_some, Option.some.injEq] using taken
    exact inv.stopJob
  | exit =>
    obtain rfl := Option.some.inj taken
    exact inv.exit

/-- Under the invariant every message is published at least once, and in order. -/
theorem Invariant.atLeastOnce (inv : s.Invariant jobId) : s.AtLeastOnce jobId := by
  refine ⟨inv.acknowledged, inv.ordered, inv.repeated, inv.oneConsumer, fun quiet topic known p inside => ?_⟩
  have has : s.hasPartition topic := by
    have found := List.filter_eq_nil_iff.mp quiet.found topic known
    simpa using found
  obtain ⟨c, member, position, assigned⟩ := quiet.consumed topic has
  obtain ⟨idle, read⟩ := quiet.idle c member
  obtain ⟨k, found⟩ := List.mem_iff_getElem?.mp member
  have current := (inv.agrees k c found).free topic position assigned (by simp [idle])
  have whole := read topic position assigned
  exact inv.acknowledged topic p (by omega)

end

/-- The process ends after the job has published a message, and before it has counted it: the message is published again. -/
def exitedRun : List KafkaSinkAction :=
  [.createTopic "orders", .produce "orders", .start, .listenTopic, .consume 0 "orders", .publish 0, .exit, .start, .listenTopic,
    .consume 0 "orders", .publish 0, .readOffset 0, .writeOffset 0]

example : ((run (step "job") {} exitedRun).map (·.published)) = some [("orders", 0), ("orders", 0)] := by decide

/-- A job that is started too early loses a message: two consumers count the first one, and the offset goes past the second. -/
example : ((run (step "job") {} [.createTopic "orders", .produce "orders", .produce "orders", .start, .listenTopic,
    .consume 0 "orders", .stop, .start, .listenTopic, .publish 0, .readOffset 0, .writeOffset 0, .consume 1 "orders",
    .publish 1, .readOffset 1, .writeOffset 1]).map fun s => (s.published, s.stored "job" "orders")) =
    some ([("orders", 0), ("orders", 0)], 2) := by decide

end KafkaSink

end FaasNet.EventMesh
