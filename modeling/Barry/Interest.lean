import Barry.Router

/-!
# Interests in packets

A socket is registered with a type that says which packets it wants (`router.h`). `QueuePacket`
looks at the type, and `RouteOrQueuePacket`, which every other packet goes through, does not
(`router.cc`).

`Filtered` says what a step does if packets are routed by type. It is about every step of a run :
what a packet reaches is decided by the registrations of that moment.
-/

namespace Barry

open Protocol

/-- The type includes the kind of a packet. -/
def InterestType.includes (type : InterestType) (data : Data) : Bool :=
  bif isSequencePacket data then type.sequence else type.data

namespace Router

/-- The packets that were put in the queue of an entry, or routed to its handler. -/
def reached (s : Router) (id : ℕ) : List Packet :=
  (s.entries[id]?).elim [] fun e => e.queue.pushed ++ e.routed

/-- A packet reaches an entry between two states. -/
def Reaches (s s' : Router) (id : ℕ) (p : Packet) : Prop :=
  (s.reached id).count p < (s'.reached id).count p

instance (s s' : Router) (id : ℕ) (p : Packet) : Decidable (s.Reaches s' id p) :=
  inferInstanceAs (Decidable (_ < _))

/-- What a step does with packets, if they are routed by type. -/
structure Filtered (s : Router) (label : Label) : Prop where
  /-- A packet that reaches an entry is for its socket, and of a kind that its type includes. -/
  interest : ∀ id p, s.Reaches (s.step label) id p → ∃ e, s.entries[id]? = some e ∧
    e.registered = true ∧ socketOf p.data = e.socket ∧ e.type.includes p.data = true
  /-- A packet that names a socket is for routing, or for the default queue. -/
  sized : ∀ i item, label = .checkSize i → s.reads[i]? = some (.read item) →
    2 ≤ item.packet.data.getSize → s.step label = s.setRead i (.interested item) ∨
      s.step label = s.setRead i (.unrouted item)
  /-- A packet that reaches no entry is for the default queue. -/
  default : ∀ i item, label = .route i → s.reads[i]? = some (.interested item) →
    (∃ id, s.Reaches (s.step label) id item.packet) ∨ s.step label = s.setRead i (.unrouted item)
  queued : ∀ i item, label = .queueDefault i → s.reads[i]? = some (.unrouted item) →
    (s.step label).default = s.default.push item
  /-- Without a handler, the two functions do the same with a packet. -/
  agree : ∀ i item, label = .route i → s.reads[i]? = some (.interested item) →
    (∀ e, s.entries[s.find (socketOf item.packet.data)]? = some e → e.handler = false) →
    s.queuePacket i (socketOf item.packet.data) item =
      s.routeOrQueuePacket i (socketOf item.packet.data) item

/-- A packet is routed while the type of its socket includes it. The type of a sequence packet does
not matter if there is a handler, which is never asked. -/
def Heeded (s : Router) (label : Label) : Prop :=
  ∀ i item e, label = .route i → s.reads[i]? = some (.interested item) →
    s.entries[s.find (socketOf item.packet.data)]? = some e →
    e.type.includes item.packet.data = true ∨
      isSequencePacket item.packet.data = true ∧ e.handler = true

variable {s s' : Router} {label : Label} {i k id : ℕ} {item : Item} {e e' : QueueEntry} {p : Packet}

/-! ## What reaches an entry -/

theorem reached_of_entries (h : s'.entries = s.entries) : s'.reached id = s.reached id := by
  rw [reached, h, reached]

/-- A change of an entry that leaves what reached it. -/
theorem reached_of_set (hk : s.entries[k]? = some e) (hs : s'.entries = s.entries.set k e')
    (he : e'.queue.pushed ++ e'.routed = e.queue.pushed ++ e.routed) :
    s'.reached id = s.reached id := by
  rw [reached, reached, hs]
  by_cases hid : k = id
  · subst hid
    rw [List.getElem?_set_self (List.getElem?_eq_some_iff.mp hk).1, hk]
    exact he
  · rw [List.getElem?_set_ne hid]

theorem reached_setRead {r : Reading} : (s.setRead i r).reached id = s.reached id := rfl

theorem reached_registerInterestAndType (socket : ℕ) (handler : Bool) (type : InterestType) :
    (s.registerInterestAndType socket handler type).reached id = s.reached id := by
  unfold registerInterestAndType
  split
  · rfl
  · rw [reached, reached]
    dsimp only
    rw [List.getElem?_append]
    split
    · rfl
    · rename_i hid
      rw [List.getElem?_eq_none (Nat.le_of_not_lt hid)]
      cases id - s.entries.length with
      | zero => rfl
      | succ n => rfl

theorem reached_unregisterInterest (socket : ℕ) :
    (s.unregisterInterest socket).reached id = s.reached id := by
  unfold unregisterInterest
  split
  · rfl
  · rename_i e he
    exact reached_of_set he rfl rfl

theorem reached_changeInterest (socket : ℕ) (type : InterestType) :
    (s.changeInterest socket type).reached id = s.reached id := by
  unfold changeInterest
  split
  · rfl
  · rename_i e he
    exact reached_of_set he rfl rfl

theorem reached_socketPop (i : ℕ) : (s.socketPop i).reached id = s.reached id := by
  unfold socketPop
  split
  · rfl
  · dsimp only
    split
    · rfl
    · rename_i e he
      split
      · rfl
      · rename_i item queue hpop
        have hpushed : queue.pushed = e.queue.pushed := by
          rw [(DataQueue.waitPop_eq_some hpop).2]
        exact reached_of_set he rfl (congrArg (· ++ e.routed) hpushed)

theorem reached_dataReceived (i : ℕ) : (s.dataReceived i).reached id = s.reached id := by
  unfold dataReceived
  split
  · split
    · rfl
    · rename_i e he
      split
      · exact reached_of_set he rfl rfl
      · rfl
  · rfl

/-- Only routing makes a packet reach an entry. -/
theorem reached_step (hroute : ∀ i, label ≠ .route i) :
    (s.step label).reached id = s.reached id := by
  cases label with
  | route i => exact absurd rfl (hroute i)
  | registerInterest socket handler type =>
    exact reached_registerInterestAndType socket handler type
  | unregisterInterest socket => exact reached_unregisterInterest socket
  | changeInterest socket type => exact reached_changeInterest socket type
  | socketPop i => exact reached_socketPop i
  | dataReceived i => exact reached_dataReceived i
  | allocateBuffers count => rfl
  | setUsbDevice => rfl
  | clearUsbDevice => rfl
  | simpleReadThread => rfl
  | allocateBuffer i =>
    exact reached_of_entries (by simp only [step, allocateBuffer]; split <;> rfl)
  | defaultRead =>
    exact reached_of_entries (by simp only [step, defaultRead]; split <;> rfl)
  | socketRead socket =>
    exact reached_of_entries (by simp only [step, socketRead]; split <;> rfl)
  | socketReturn i =>
    exact reached_of_entries (by simp only [step, socketReturn]; split <;> rfl)
  | dropHandle i =>
    exact reached_of_entries (by simp only [step, dropHandle]; split <;> rfl)
  | releaseHandle i =>
    exact reached_of_entries (by simp only [step, releaseHandle]; split <;> rfl)
  | adoptData i =>
    exact reached_of_entries (by simp only [step, adoptData]; split <;> rfl)
  | queueDefault i =>
    exact reached_of_entries (by simp only [step, queueDefault]; split <;> rfl)
  | leave i =>
    exact reached_of_entries (by simp only [step, leave]; split <;> rfl)
  | doRead =>
    refine reached_of_entries ?_
    simp only [step, doRead]
    split
    · rfl
    · split <;> rfl
  | bulkRead i result =>
    refine reached_of_entries ?_
    simp only [step, bulkRead]
    split
    · cases result <;> rfl
    · rfl
  | checkSize i =>
    refine reached_of_entries ?_
    simp only [step, checkSize]
    split
    · split
      · rfl
      · split <;> rfl
    · rfl
  | handlerEnds i result =>
    refine reached_of_entries ?_
    simp only [step, handlerEnds]
    split
    · cases result <;> rfl
    · rfl

/-- Nothing reaches an entry where what reached it stays. -/
theorem not_reaches (h : s'.reached id = s.reached id) : ¬ s.Reaches s' id p := by
  rw [Reaches, h]
  exact lt_irrefl _

/-- A change of an entry that a packet reaches. -/
theorem reaches_of_set (hk : s.entries[k]? = some e) (hs : s'.entries = s.entries.set k e')
    (he : ∀ q, (e'.queue.pushed ++ e'.routed).count q =
      (e.queue.pushed ++ e.routed).count q + [item.packet].count q) :
    s.Reaches s' id p ↔ id = k ∧ p = item.packet := by
  rw [Reaches, reached, reached, hs]
  by_cases hid : k = id
  · subst hid
    rw [List.getElem?_set_self (List.getElem?_eq_some_iff.mp hk).1, hk]
    dsimp only [Option.elim]
    rw [he p, List.count_singleton, Nat.lt_add_right_iff_pos, and_iff_right rfl]
    by_cases hp : item.packet = p
    · simp [hp]
    · simp [hp, Ne.symm hp]
  · rw [List.getElem?_set_ne hid]
    exact ⟨fun h => absurd h (lt_irrefl _), fun h => absurd h.1.symm hid⟩

/-- What reaches an entry when a packet is put in its queue. -/
theorem reaches_push (hk : s.entries[k]? = some e) :
    s.Reaches (s.push i k e item) id p ↔ id = k ∧ p = item.packet :=
  reaches_of_set hk rfl fun q => by
    simp only [DataQueue.push, List.count_append]
    omega

/-- What reaches an entry when a packet is routed to its handler. -/
theorem reaches_find (hk : s.entries[k]? = some e) :
    s.Reaches (setRead { s with
      entries := s.entries.set k { e with routed := e.routed ++ [item.packet] } } i
        (.found item k)) id p ↔ id = k ∧ p = item.packet :=
  reaches_of_set hk rfl fun q => by
    simp only [List.count_append]
    omega

/-- A packet that is put in a queue is no more in a call of `DoRead`. -/
theorem push_ne_setRead (hr : s.reads[i]? = some (.interested item)) {r : Reading} :
    s.push i k e item ≠ s.setRead i r := by
  intro h
  have hlt := (List.getElem?_eq_some_iff.mp hr).1
  have hlen := congrArg (fun t => t.reads.length) h
  simp only [push, endRead, setRead, List.length_set, List.length_eraseIdx, if_pos hlt] at hlen
  omega

/-! ## Routing -/

section Route

variable (hr : s.reads[i]? = some (.interested item))

include hr

/-- No socket is registered for the packet. -/
theorem route_of_none (hk : s.entries[s.find (socketOf item.packet.data)]? = none) :
    s.step (.route i) = s.setRead i (.unrouted item) := by
  simp only [step, route, hr, queuePacket, routeOrQueuePacket, hk, ite_self]

theorem route_data (hseq : isSequencePacket item.packet.data = false) :
    s.step (.route i) = s.routeOrQueuePacket i (socketOf item.packet.data) item := by
  simp only [step, route, hr, hseq, Bool.false_eq_true, if_false]

variable (hk : s.entries[s.find (socketOf item.packet.data)]? = some e)

include hk

theorem route_sequence (hseq : isSequencePacket item.packet.data = true) :
    s.step (.route i) =
      if e.type.includes item.packet.data then s.push i (s.find (socketOf item.packet.data)) e item
      else s.setRead i (.unrouted item) := by
  simp only [step, route, hr, hseq, queuePacket, hk, InterestType.includes, if_true]

/-- A packet that is not a sequence packet reaches the entry of its socket, whatever its type. -/
theorem reaches_route_data (hseq : isSequencePacket item.packet.data = false) :
    s.Reaches (s.step (.route i)) id p ↔
      id = s.find (socketOf item.packet.data) ∧ p = item.packet := by
  rw [route_data hr hseq, routeOrQueuePacket, hk]
  dsimp only
  by_cases hhandler : e.handler = true
  · rw [if_pos hhandler]
    exact reaches_find hk
  · rw [if_neg hhandler]
    exact reaches_push hk

/-- Without a handler, the two functions do the same exactly if the type includes the packet. -/
theorem queuePacket_eq_iff (hhandler : e.handler = false) :
    s.queuePacket i (socketOf item.packet.data) item =
        s.routeOrQueuePacket i (socketOf item.packet.data) item ↔
      e.type.includes item.packet.data = true := by
  rw [queuePacket, routeOrQueuePacket, hk]
  dsimp only
  rw [hhandler, ← InterestType.includes]
  cases hincludes : e.type.includes item.packet.data with
  | true => simp
  | false =>
    simp only [Bool.false_eq_true, if_false, iff_false]
    exact fun h => push_ne_setRead hr h.symm

end Route

/-- A step other than routing does nothing with the types. -/
theorem filtered_of_ne_route (hroute : ∀ i, label ≠ .route i) : s.Filtered label where
  interest id p h := absurd h (not_reaches (reached_step hroute))
  sized i item hlabel hr hsize := by
    subst hlabel
    simp only [step, checkSize, hr, if_neg (Nat.not_lt.mpr hsize)]
    split
    · exact .inl rfl
    · exact .inr rfl
  default i item hlabel := absurd hlabel (hroute i)
  queued i item hlabel hr := by
    subst hlabel
    simp only [step, queueDefault, hr, endRead]
  agree i item hlabel := absurd hlabel (hroute i)

/-- What a step of routing has to do with a packet. -/
theorem filtered_route_iff (hr : s.reads[i]? = some (.interested item)) :
    s.Filtered (.route i) ↔
      (∀ id p, s.Reaches (s.step (.route i)) id p → ∃ e, s.entries[id]? = some e ∧
        e.registered = true ∧ socketOf p.data = e.socket ∧ e.type.includes p.data = true) ∧
      ((∃ id, s.Reaches (s.step (.route i)) id item.packet) ∨
        s.step (.route i) = s.setRead i (.unrouted item)) ∧
      ((∀ e, s.entries[s.find (socketOf item.packet.data)]? = some e → e.handler = false) →
        s.queuePacket i (socketOf item.packet.data) item =
          s.routeOrQueuePacket i (socketOf item.packet.data) item) := by
  constructor
  · exact fun h => ⟨h.interest, h.default i item rfl hr, h.agree i item rfl hr⟩
  · rintro ⟨hinterest, hdefault, hagree⟩
    have hsame : ∀ j item', Label.route i = .route j → s.reads[j]? = some (.interested item') →
        j = i ∧ item' = item := by
      rintro j item' hlabel hj
      obtain rfl := Label.route.inj hlabel
      rw [hr] at hj
      exact ⟨rfl, Reading.interested.inj (Option.some.inj hj).symm⟩
    refine ⟨hinterest, nofun, fun j item' hlabel hj => ?_, nofun, fun j item' hlabel hj => ?_⟩
    · obtain ⟨rfl, rfl⟩ := hsame j item' hlabel hj
      exact hdefault
    · obtain ⟨rfl, rfl⟩ := hsame j item' hlabel hj
      exact hagree

/-- There is nothing to route. -/
theorem filtered_of_not_interested (hr : ∀ item, s.reads[i]? ≠ some (.interested item)) :
    s.Filtered (.route i) := by
  have hstep : s.step (.route i) = s := by
    unfold step route
    dsimp only
    split
    · rename_i item hitem
      exact absurd hitem (hr item)
    · rfl
  have hnone : ∀ j item, Label.route i = .route j → s.reads[j]? ≠ some (.interested item) :=
    fun j item hlabel => Label.route.inj hlabel ▸ hr item
  refine ⟨fun id p h => ?_, nofun, fun j item hlabel hj => ?_, nofun, fun j item hlabel hj => ?_⟩
  · rw [hstep] at h
    exact absurd h (not_reaches rfl)
  · exact absurd hj (hnone j item hlabel)
  · exact absurd hj (hnone j item hlabel)

theorem filtered_unregistered (hr : s.reads[i]? = some (.interested item))
    (hk : s.entries[s.find (socketOf item.packet.data)]? = none) : s.Filtered (.route i) := by
  rw [filtered_route_iff hr, route_of_none hr hk, queuePacket, routeOrQueuePacket, hk]
  exact ⟨fun id p h => absurd h (not_reaches reached_setRead), .inr rfl, fun _ => rfl⟩

/-- What a type includes reaches its entry. -/
theorem interest_of_includes (hk : s.entries[s.find (socketOf item.packet.data)]? = some e)
    (hincludes : e.type.includes item.packet.data = true)
    (h : id = s.find (socketOf item.packet.data) ∧ p = item.packet) :
    ∃ e, s.entries[id]? = some e ∧ e.registered = true ∧ socketOf p.data = e.socket ∧
      e.type.includes p.data = true := by
  obtain ⟨rfl, rfl⟩ := h
  obtain ⟨hreg, hsocket⟩ := registered_of_find hk
  exact ⟨e, hk, hreg, hsocket.symm, hincludes⟩

theorem filtered_sequence_iff (hr : s.reads[i]? = some (.interested item))
    (hk : s.entries[s.find (socketOf item.packet.data)]? = some e)
    (hseq : isSequencePacket item.packet.data = true) :
    s.Filtered (.route i) ↔ e.type.includes item.packet.data = true ∨ e.handler = true := by
  rw [filtered_route_iff hr, route_sequence hr hk hseq]
  constructor
  · rintro ⟨-, -, hagree⟩
    by_contra! hnot
    have hhandler : e.handler = false := Bool.eq_false_iff.mpr hnot.2
    refine hnot.1 ((queuePacket_eq_iff hr hk hhandler).mp (hagree fun e' he' => ?_))
    rw [hk] at he'
    exact Option.some.inj he' ▸ hhandler
  · intro h
    have hagree : (∀ e, s.entries[s.find (socketOf item.packet.data)]? = some e →
        e.handler = false) → s.queuePacket i (socketOf item.packet.data) item =
          s.routeOrQueuePacket i (socketOf item.packet.data) item := fun hnone =>
      (queuePacket_eq_iff hr hk (hnone e hk)).mpr (h.resolve_right (by simp [hnone e hk]))
    by_cases hincludes : e.type.includes item.packet.data = true
    · rw [if_pos hincludes]
      refine ⟨fun id p hp => ?_, .inl ⟨_, (reaches_push hk).mpr ⟨rfl, rfl⟩⟩, hagree⟩
      exact interest_of_includes hk hincludes ((reaches_push hk).mp hp)
    · rw [if_neg hincludes]
      exact ⟨fun id p hp => absurd hp (not_reaches reached_setRead), .inr rfl, hagree⟩

theorem filtered_data_iff (hr : s.reads[i]? = some (.interested item))
    (hk : s.entries[s.find (socketOf item.packet.data)]? = some e)
    (hseq : isSequencePacket item.packet.data = false) :
    s.Filtered (.route i) ↔ e.type.includes item.packet.data = true := by
  have hreaches := fun id p => @reaches_route_data _ _ id _ _ p hr hk hseq
  rw [filtered_route_iff hr]
  constructor
  · rintro ⟨hinterest, -, -⟩
    obtain ⟨e', he', -, -, hincludes⟩ :=
      hinterest _ item.packet ((hreaches _ _).mpr ⟨rfl, rfl⟩)
    rw [hk] at he'
    exact Option.some.inj he' ▸ hincludes
  · intro hincludes
    refine ⟨fun id p hp => ?_, .inl ⟨_, (hreaches _ _).mpr ⟨rfl, rfl⟩⟩, fun hnone => ?_⟩
    · exact interest_of_includes hk hincludes ((hreaches id p).mp hp)
    · exact (queuePacket_eq_iff hr hk (hnone e hk)).mpr hincludes

theorem heeded_route_iff (hr : s.reads[i]? = some (.interested item)) : s.Heeded (.route i) ↔
    ∀ e, s.entries[s.find (socketOf item.packet.data)]? = some e →
      e.type.includes item.packet.data = true ∨
        isSequencePacket item.packet.data = true ∧ e.handler = true := by
  refine ⟨fun h e => h i item e rfl hr, fun h j item' e hlabel hj => ?_⟩
  obtain rfl := Label.route.inj hlabel
  rw [hr] at hj
  obtain rfl := Reading.interested.inj (Option.some.inj hj)
  exact h e

/-- A step routes by type exactly if it is heeded. -/
theorem filtered_iff (s : Router) (label : Label) : s.Filtered label ↔ s.Heeded label := by
  by_cases hroute : ∃ i, label = .route i
  · obtain ⟨i, rfl⟩ := hroute
    by_cases hr : ∃ item, s.reads[i]? = some (.interested item)
    · obtain ⟨item, hr⟩ := hr
      rw [heeded_route_iff hr]
      cases hk : s.entries[s.find (socketOf item.packet.data)]? with
      | none => exact ⟨fun _ => nofun, fun _ => filtered_unregistered hr hk⟩
      | some e =>
        cases hseq : isSequencePacket item.packet.data with
        | true => simp [filtered_sequence_iff hr hk hseq]
        | false => simp [filtered_data_iff hr hk hseq]
    · refine ⟨fun _ j item e hlabel hj => ?_,
        fun _ => filtered_of_not_interested (not_exists.mp hr)⟩
      exact absurd ⟨item, Label.route.inj hlabel ▸ hj⟩ hr
  · exact ⟨fun _ i item e hlabel => absurd ⟨i, hlabel⟩ hroute,
      fun _ => filtered_of_ne_route (not_exists.mp hroute)⟩

/-! ## Runs -/

/-- Packets are routed by type at every step of a run exactly if every step is heeded. -/
theorem filtered_run_iff (labels : List Label) :
    (∀ before label after, labels = before ++ label :: after → (run before).Filtered label) ↔
      ∀ before label after, labels = before ++ label :: after → (run before).Heeded label :=
  forall_congr' fun before => forall_congr' fun label => forall_congr' fun _ =>
    imp_congr_right fun _ => filtered_iff (run before) label

/-- A socket changes its interest to sequence packets, and then a data packet for it arrives. -/
def changedInterestRun : List Label :=
  [.setUsbDevice, .registerInterest 5 false .sequenceAndDataPackets,
    .changeInterest 5 .sequencePackets, .doRead,
    .bulkRead 0 (.packet (Data.ofBytes [5, 0, 5, 0, 2])), .checkSize 0]

/-- The data packet goes into the queue of the socket, where `QueuePacket` does not put it. -/
theorem not_filtered_changedInterest :
    ¬ (run changedInterestRun).Filtered (.route 0) ∧
      ∃ e ∈ ((run changedInterestRun).step (.route 0)).entries, e.type = .sequencePackets ∧
        ∃ p ∈ e.queue.pushed, isSequencePacket p.data = false := by
  refine ⟨fun h => ?_, by decide⟩
  obtain ⟨e, he, -, -, hincludes⟩ := h.interest 0 ⟨0, Data.ofBytes [5, 0, 5, 0, 2]⟩ (by decide)
  have hentry : (run changedInterestRun).entries[0]? =
      some ⟨5, true, false, .sequencePackets, DataQueue.new, [], []⟩ := by decide
  rw [hentry] at he
  obtain rfl := Option.some.inj he
  exact absurd hincludes (by decide)

end Router

end Barry
