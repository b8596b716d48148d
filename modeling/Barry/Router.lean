import Barry.Lib.Lists
import Barry.Protocol

/-!
# The socket routing queue

`SocketRoutingQueue` (`router.cc`) hands buffers around. A read of the device takes one
from `m_free` and leaves it in the queue of a registered socket, in the default queue, or
in `m_free` again, after a handler saw it or when there was nothing to deliver. Callers
get buffers out of the queues as `DataHandle`s, which give them back to `m_free`
(`dataqueue.cc`).

A buffer is a number here, and a packet is what a read put in one, with its place in the
order of arrival. `step` is what one thread does between two points where another may
run, so a run of labels is any interleaving of the calls, and a label whose call is not
at that point changes nothing. Each `DataQueue` remembers what went through it
(`pushed`, `taken` and `salvaged`), which the code does not look at.

`RouteOrQueuePacket` gives the lock back before it calls a handler, through a reference
into the entry that it found, which `UnregisterInterest` may have erased by then. `route`
is the lookup and `dataReceived` the call. A packet whose call comes too late is
`dangling`, and `dangling_run_iff` says which runs have none.

`Inv` says that the buffers at all `places` are those allocated, each once, and that the
packets at all `packets` are those that arrived, each once. `places_of_run` has it for
every run.
-/

namespace Barry

open Protocol

/-! ## Queues -/

/-- A packet the device sent, with its place in the order of arrival. -/
structure Packet where
  number : ℕ
  data : Data
  deriving DecidableEq

/-- A buffer and the packet in it. -/
structure Item where
  buf : ℕ
  packet : Packet
  deriving DecidableEq

/-- `DataQueue`. The packets that were ever pushed, popped, and moved elsewhere by
`append_from` are remembered. -/
structure DataQueue where
  items : List Item
  pushed : List Packet
  taken : List Packet
  salvaged : List Packet
  deriving DecidableEq

namespace DataQueue

/-- An empty queue. -/
def new : DataQueue := ⟨[], [], [], []⟩

/-- `DataQueue::push`. -/
def push (q : DataQueue) (item : Item) : DataQueue :=
  { q with items := q.items ++ [item], pushed := q.pushed ++ [item.packet] }

/-- `DataQueue::wait_pop`, when it stops waiting : the first item, if there is one. -/
def waitPop (q : DataQueue) : Option (Item × DataQueue) :=
  match q.items with
  | [] => none
  | item :: items => some (item, { q with items, taken := q.taken ++ [item.packet] })

/-- `DataQueue::append_from` : what is left of the queue whose items are taken. -/
def salvage (q : DataQueue) : DataQueue :=
  { q with items := [], salvaged := q.salvaged ++ q.items.map Item.packet }

/-- First in, first out. -/
def Fifo (q : DataQueue) : Prop :=
  q.pushed = q.taken ++ q.salvaged ++ q.items.map Item.packet ∧
    (q.salvaged ≠ [] → q.items = [])

theorem fifo_new : new.Fifo :=
  ⟨rfl, fun h => absurd rfl h⟩

theorem Fifo.push {q : DataQueue} (h : q.Fifo) (hs : q.salvaged = []) (item : Item) :
    (q.push item).Fifo :=
  ⟨by simp [DataQueue.push, h.1], fun hne => absurd hs hne⟩

theorem Fifo.salvage {q : DataQueue} (h : q.Fifo) (hs : q.salvaged = []) : q.salvage.Fifo :=
  ⟨by simp [DataQueue.salvage, h.1, hs], fun _ => rfl⟩

/-- What was taken was pushed before the rest. -/
theorem Fifo.taken_sublist {q : DataQueue} (h : q.Fifo) : q.taken.Sublist q.pushed := by
  rw [h.1, List.append_assoc]
  exact List.sublist_append_left _ _

/-- What `wait_pop` takes is the first item. -/
theorem waitPop_eq_some {q q' : DataQueue} {item : Item} (h : q.waitPop = some (item, q')) :
    q.items = item :: q'.items ∧
    q' = { q with items := q'.items, taken := q.taken ++ [item.packet] } := by
  unfold waitPop at h
  split at h
  · cases h
  · rename_i item' items hitems
    cases h
    exact ⟨hitems, rfl⟩

theorem Fifo.waitPop {q q' : DataQueue} {item : Item} (h : q.Fifo)
    (hpop : q.waitPop = some (item, q')) : q'.Fifo ∧ q'.salvaged = q.salvaged ∧
      q'.pushed = q.pushed := by
  obtain ⟨hitems, hq⟩ := waitPop_eq_some hpop
  have hs : q.salvaged = [] := by
    by_contra hne
    exact absurd (h.2 hne) (by simp [hitems])
  rw [hq]
  refine ⟨⟨?_, fun hne => absurd hs hne⟩, rfl, rfl⟩
  simp [h.1, hs, hitems]

end DataQueue

/-- `SocketRoutingQueue::InterestType`. -/
inductive InterestType
  | dataPackets
  | sequencePackets
  | sequenceAndDataPackets
  deriving DecidableEq

/-- The `SequencePackets` bit. -/
def InterestType.sequence : InterestType → Bool
  | .dataPackets => false
  | _ => true

/-- The `DataPackets` bit. -/
def InterestType.data : InterestType → Bool
  | .sequencePackets => false
  | _ => true

/-- `SocketRoutingQueue::QueueEntry`. It lives on after its socket is unregistered, if a
`SocketRead` still holds it. The packets that were routed to its handler are remembered,
and those it was called with. -/
structure QueueEntry where
  socket : ℕ
  registered : Bool
  handler : Bool
  type : InterestType
  queue : DataQueue
  routed : List Packet
  handled : List Packet
  deriving DecidableEq

/-- Where a call of `DoRead` is. -/
inductive Reading
  /-- In `BulkRead`, with an empty buffer. -/
  | reading (buf : ℕ)
  /-- Back from it with a packet. -/
  | read (item : Item)
  /-- It saw `m_interest`. -/
  | interested (item : Item)
  /-- No queue takes the packet, so it is for the default queue. -/
  | unrouted (item : Item)
  /-- It found an entry with a handler, and gave the lock back. -/
  | found (item : Item) (id : ℕ)
  /-- In the handler of the socket. -/
  | handling (item : Item)
  /-- On the way out, with a buffer its `DataHandle` gives back. -/
  | leaving (buf : ℕ)
  deriving DecidableEq

/-- The buffer a call of `DoRead` holds. -/
def Reading.buf : Reading → ℕ
  | .reading buf | .leaving buf => buf
  | .read item | .interested item | .unrouted item | .found item _ | .handling item => item.buf

/-- The packet it did not deliver yet. -/
def Reading.pending : Reading → List Packet
  | .read item | .interested item | .unrouted item | .found item _ => [item.packet]
  | .reading _ | .leaving _ | .handling _ => []

/-- How `BulkRead` ends. -/
inductive BulkRead
  | packet (data : Data)
  | nothing
  | timeout
  | usbError
  deriving DecidableEq

/-- How a handler ends. -/
inductive Handling
  | returns
  | timeout
  | usbError
  | otherException
  deriving DecidableEq

/-- `SocketRoutingQueue`, with the calls that are under way. -/
structure Router where
  connected : Bool
  seenUsbError : Bool
  interest : Bool
  free : List ℕ
  default : DataQueue
  entries : List QueueEntry
  /-- Calls of `AllocateBuffers`, by the buffers they have to allocate yet. -/
  allocating : List ℕ
  /-- Calls of `DoRead`. -/
  reads : List Reading
  /-- Calls of `SocketRead` in `wait_pop`, by the entry they wait for. -/
  waiting : List ℕ
  /-- Calls of `SocketRead` that have their buffer. -/
  popped : List Item
  /-- Live `DataHandle`s. -/
  handles : List Item
  /-- Buffers that a caller owns, by `DataHandle::release`. -/
  released : List Item
  /-- The number of buffers allocated so far. -/
  allocated : ℕ
  arrived : List Packet
  /-- Packets without a socket. -/
  skipped : List Packet
  /-- Packets whose handler was called through an entry that was erased. -/
  dangling : List Packet
  /-- There were two calls of `DoRead` at a time. -/
  overlapped : Bool
  deriving DecidableEq

namespace Router

/-- What a thread does between two points where another may run. -/
inductive Label
  | allocateBuffers (count : ℤ)
  | allocateBuffer (i : ℕ)
  | setUsbDevice
  | clearUsbDevice
  | simpleReadThread
  | registerInterest (socket : ℕ) (handler : Bool) (type : InterestType)
  | unregisterInterest (socket : ℕ)
  | changeInterest (socket : ℕ) (type : InterestType)
  | defaultRead
  | socketRead (socket : ℕ)
  | socketPop (i : ℕ)
  | socketReturn (i : ℕ)
  | dropHandle (i : ℕ)
  | releaseHandle (i : ℕ)
  | adoptData (i : ℕ)
  | doRead
  | bulkRead (i : ℕ) (result : BulkRead)
  | checkSize (i : ℕ)
  | route (i : ℕ)
  | dataReceived (i : ℕ)
  | queueDefault (i : ℕ)
  | handlerEnds (i : ℕ) (result : Handling)
  | leave (i : ℕ)

/-! ## Buffers and handles -/

/-- `SocketRoutingQueue::ReturnBuffer`. -/
def returnBuffer (s : Router) (buf : ℕ) : Router :=
  { s with free := s.free ++ [buf] }

/-- `SocketRoutingQueue::AllocateBuffers` : how many it has to allocate. -/
def allocateBuffers (s : Router) (count : ℤ) : Router :=
  { s with allocating := s.allocating ++ [(toInt (count - s.free.length)).toNat] }

/-- One round of its loop. -/
def allocateBuffer (s : Router) (i : ℕ) : Router :=
  match s.allocating[i]? with
  | some (todo + 1) => { s with
      allocating := s.allocating.set i todo
      free := s.free ++ [s.allocated]
      allocated := s.allocated + 1 }
  | _ => s

/-- `DataHandle::~DataHandle`. -/
def dropHandle (s : Router) (i : ℕ) : Router :=
  match s.handles[i]? with
  | some item => returnBuffer { s with handles := s.handles.eraseIdx i } item.buf
  | none => s

/-- `DataHandle::release`. -/
def releaseHandle (s : Router) (i : ℕ) : Router :=
  match s.handles[i]? with
  | some item => { s with handles := s.handles.eraseIdx i, released := s.released ++ [item] }
  | none => s

/-- A new `DataHandle` for a buffer that was released. -/
def adoptData (s : Router) (i : ℕ) : Router :=
  match s.released[i]? with
  | some item => { s with released := s.released.eraseIdx i, handles := s.handles ++ [item] }
  | none => s

/-! ## Registration -/

/-- `m_socketQueues.find(socket)`. -/
def find (s : Router) (socket : ℕ) : ℕ :=
  s.entries.findIdx fun e => e.registered && e.socket == socket

/-- `SocketRoutingQueue::RegisterInterestAndType`. It throws if the socket is registered. -/
def registerInterestAndType (s : Router) (socket : ℕ) (handler : Bool) (type : InterestType) :
    Router :=
  match s.entries[s.find socket]? with
  | some _ => s
  | none => { s with
      entries := s.entries ++ [⟨socket, true, handler, type, DataQueue.new, [], []⟩]
      interest := true }

/-- `SocketRoutingQueue::UnregisterInterest`. -/
def unregisterInterest (s : Router) (socket : ℕ) : Router :=
  match s.entries[s.find socket]? with
  | none => s
  | some e =>
    let entries := s.entries.set (s.find socket)
      { e with registered := false, queue := e.queue.salvage }
    { s with
      free := s.free ++ e.queue.items.map Item.buf
      entries
      interest := entries.any QueueEntry.registered }

/-- `SocketRoutingQueue::ChangeInterest`. It throws if the socket is not registered. -/
def changeInterest (s : Router) (socket : ℕ) (type : InterestType) : Router :=
  match s.entries[s.find socket]? with
  | none => s
  | some e => { s with entries := s.entries.set (s.find socket) { e with type } }

/-! ## Callers' reads -/

/-- `SocketRoutingQueue::DefaultRead`. -/
def defaultRead (s : Router) : Router :=
  match s.default.waitPop with
  | none => s
  | some (item, default) => { s with default, handles := s.handles ++ [item] }

/-- `SocketRoutingQueue::SocketRead`, until it waits. It throws if the socket is not
registered. -/
def socketRead (s : Router) (socket : ℕ) : Router :=
  match s.entries[s.find socket]? with
  | none => s
  | some _ => { s with waiting := s.waiting ++ [s.find socket] }

/-- The wait is over, with a buffer or without. -/
def socketPop (s : Router) (i : ℕ) : Router :=
  match s.waiting[i]? with
  | none => s
  | some id =>
    let s := { s with waiting := s.waiting.eraseIdx i }
    match s.entries[id]? with
    | none => s
    | some e =>
      match e.queue.waitPop with
      | none => s
      | some (item, queue) => { s with
          entries := s.entries.set id { e with queue }
          popped := s.popped ++ [item] }

/-- `SocketRead` returns its buffer. -/
def socketReturn (s : Router) (i : ℕ) : Router :=
  match s.popped[i]? with
  | none => s
  | some item => { s with popped := s.popped.eraseIdx i, handles := s.handles ++ [item] }

/-! ## The read loop -/

/-- A call of `DoRead` goes on. -/
def setRead (s : Router) (i : ℕ) (r : Reading) : Router :=
  { s with reads := s.reads.set i r }

/-- A call of `DoRead` returns. -/
def endRead (s : Router) (i : ℕ) : Router :=
  { s with reads := s.reads.eraseIdx i }

/-- `SocketRoutingQueue::DoRead`, until it is in `BulkRead`. -/
def doRead (s : Router) : Router :=
  if !s.connected || s.seenUsbError then s
  else
    let overlapped := s.overlapped || !s.reads.isEmpty
    match s.free with
    | [] => { s with
        reads := s.reads ++ [.reading s.allocated]
        allocated := s.allocated + 1
        overlapped }
    | buf :: free => { s with reads := s.reads ++ [.reading buf], free, overlapped }

/-- `BulkRead` ends. -/
def bulkRead (s : Router) (i : ℕ) (result : BulkRead) : Router :=
  match s.reads[i]? with
  | some (.reading buf) =>
    match result with
    | .packet data =>
      let packet : Packet := ⟨s.arrived.length, data⟩
      setRead { s with arrived := s.arrived ++ [packet] } i (.read ⟨buf, packet⟩)
    | .nothing | .timeout => s.setRead i (.leaving buf)
    | .usbError => setRead { s with seenUsbError := true } i (.leaving buf)
  | _ => s

/-- The size check, and the look at `m_interest`. -/
def checkSize (s : Router) (i : ℕ) : Router :=
  match s.reads[i]? with
  | some (.read item) =>
    if item.packet.data.getSize < 2 then
      setRead { s with skipped := s.skipped ++ [item.packet] } i (.leaving item.buf)
    else if s.interest then s.setRead i (.interested item)
    else s.setRead i (.unrouted item)
  | _ => s

/-- The socket a packet is for. A sequence packet names it in a byte of its own. -/
def socketOf (data : Data) : ℕ :=
  if isSequencePacket data then (data.getData.getD 5 0).toNat else socketField data.getData

/-- A packet goes into the queue of an entry, and `DoRead` returns. -/
def push (s : Router) (i id : ℕ) (e : QueueEntry) (item : Item) : Router :=
  endRead { s with entries := s.entries.set id { e with queue := e.queue.push item } } i

/-- `SocketRoutingQueue::QueuePacket`. -/
def queuePacket (s : Router) (i socket : ℕ) (item : Item) : Router :=
  match s.entries[s.find socket]? with
  | none => s.setRead i (.unrouted item)
  | some e =>
    if bif isSequencePacket item.packet.data then e.type.sequence else e.type.data then
      s.push i (s.find socket) e item
    else s.setRead i (.unrouted item)

/-- `SocketRoutingQueue::RouteOrQueuePacket`, until it gives the lock back. -/
def routeOrQueuePacket (s : Router) (i socket : ℕ) (item : Item) : Router :=
  match s.entries[s.find socket]? with
  | none => s.setRead i (.unrouted item)
  | some e =>
    if e.handler then
      setRead { s with
        entries := s.entries.set (s.find socket) { e with routed := e.routed ++ [item.packet] } }
        i (.found item (s.find socket))
    else s.push i (s.find socket) e item

/-- `DoRead` looks for a registered socket. -/
def route (s : Router) (i : ℕ) : Router :=
  match s.reads[i]? with
  | some (.interested item) =>
    if isSequencePacket item.packet.data then s.queuePacket i (socketOf item.packet.data) item
    else s.routeOrQueuePacket i (socketOf item.packet.data) item
  | _ => s

/-- `DataReceived` is called, through the entry that was found. If it was erased there is
nothing to call, and what happens is not known. -/
def dataReceived (s : Router) (i : ℕ) : Router :=
  match s.reads[i]? with
  | some (.found item id) =>
    match s.entries[id]? with
    | none => s
    | some e =>
      if e.registered then
        setRead { s with
          entries := s.entries.set id { e with handled := e.handled ++ [item.packet] } }
          i (.handling item)
      else setRead { s with dangling := s.dangling ++ [item.packet] } i (.leaving item.buf)
  | _ => s

/-- The packet goes into the default queue, and `DoRead` returns. -/
def queueDefault (s : Router) (i : ℕ) : Router :=
  match s.reads[i]? with
  | some (.unrouted item) => endRead { s with default := s.default.push item } i
  | _ => s

/-- A handler returns or throws. -/
def handlerEnds (s : Router) (i : ℕ) (result : Handling) : Router :=
  match s.reads[i]? with
  | some (.handling item) =>
    match result with
    | .usbError => setRead { s with seenUsbError := true } i (.leaving item.buf)
    | .returns | .timeout | .otherException => s.setRead i (.leaving item.buf)
  | _ => s

/-- The `DataHandle` of `DoRead` gives its buffer back. -/
def leave (s : Router) (i : ℕ) : Router :=
  match s.reads[i]? with
  | some (.leaving buf) => returnBuffer (s.endRead i) buf
  | _ => s

/-! ## Runs -/

def step (s : Router) : Label → Router
  | .allocateBuffers count => s.allocateBuffers count
  | .allocateBuffer i => s.allocateBuffer i
  | .setUsbDevice => { s with connected := true }
  | .clearUsbDevice => { s with connected := false }
  | .simpleReadThread => { s with seenUsbError := false }
  | .registerInterest socket handler type => s.registerInterestAndType socket handler type
  | .unregisterInterest socket => s.unregisterInterest socket
  | .changeInterest socket type => s.changeInterest socket type
  | .defaultRead => s.defaultRead
  | .socketRead socket => s.socketRead socket
  | .socketPop i => s.socketPop i
  | .socketReturn i => s.socketReturn i
  | .dropHandle i => s.dropHandle i
  | .releaseHandle i => s.releaseHandle i
  | .adoptData i => s.adoptData i
  | .doRead => s.doRead
  | .bulkRead i result => s.bulkRead i result
  | .checkSize i => s.checkSize i
  | .route i => s.route i
  | .dataReceived i => s.dataReceived i
  | .queueDefault i => s.queueDefault i
  | .handlerEnds i result => s.handlerEnds i result
  | .leave i => s.leave i

/-- A new router, without buffers. The constructor calls `AllocateBuffers` on it. -/
def start : Router :=
  ⟨false, false, false, [], DataQueue.new, [], [], [], [], [], [], [], 0, [], [], [], false⟩

/-- The state a run of labels leaves. -/
def run (labels : List Label) : Router :=
  labels.foldl step start

/-! ## Places -/

/-- The buffers, place by place. -/
def places (s : Router) : List ℕ :=
  s.free ++ s.default.items.map Item.buf ++ s.entries.flatMap (·.queue.items.map Item.buf) ++
    s.reads.map Reading.buf ++ s.popped.map Item.buf ++ s.handles.map Item.buf ++
    s.released.map Item.buf

/-- The packets that were delivered : to the default queue, to the queue of an entry, or to
its handler. -/
def delivered (s : Router) : List Packet :=
  s.default.pushed ++ s.entries.flatMap fun e => e.queue.pushed ++ e.handled

/-- The packets that calls of `DoRead` did not deliver yet. -/
def pending (s : Router) : List Packet :=
  s.reads.flatMap Reading.pending

/-- The packets, place by place. -/
def packets (s : Router) : List Packet :=
  s.skipped ++ s.dangling ++ s.delivered ++ s.pending

/-- A call of `DoRead` is not about to call the handler of an entry that was erased. -/
def Held (s : Router) (i : ℕ) : Prop :=
  ∀ item id e, s.reads[i]? = some (.found item id) → s.entries[id]? = some e → e.registered = true

/-- In the order of arrival. -/
def InOrder (l : List Packet) : Prop :=
  l.Pairwise (·.number < ·.number)

/-- A queue entry : its queue is first in, first out, an unregistered one is empty, and the
packets are for its socket. -/
structure QueueEntryOk (e : QueueEntry) : Prop where
  fifo : e.queue.Fifo
  salvaged : e.registered = true → e.queue.salvaged = []
  unregistered : e.registered = false → e.queue.items = []
  socket : ∀ p ∈ e.queue.pushed ++ e.routed, socketOf p.data = e.socket
  routed : ∀ p ∈ e.routed, isSequencePacket p.data = false
  handled : e.handled ⊆ e.routed

/-- The entry a call of `DoRead` found, if it found one, is there and was routed the packet. -/
def FoundIn (entries : List QueueEntry) : Reading → Prop
  | .found item id => ∃ e, entries[id]? = some e ∧ item.packet ∈ e.routed
  | _ => True

/-- Two entries are not registered for one socket. -/
def Distinct (e e' : QueueEntry) : Prop :=
  e.registered = true → e'.registered = true → e.socket ≠ e'.socket

/-- The order in which packets go into the queues, if there is one call of `DoRead` at a
time. -/
structure Ordered (arrived : ℕ) (reads : List Reading) (default : DataQueue)
    (entries : List QueueEntry) : Prop where
  single : reads.length ≤ 1
  pending : ∀ r ∈ reads, ∀ p ∈ r.pending, p.number + 1 = arrived
  default : InOrder default.pushed
  queues : ∀ e ∈ entries, InOrder e.queue.pushed ∧ InOrder e.handled

/-- The invariant. -/
structure Inv (s : Router) : Prop where
  buffers : s.places.Perm (List.range s.allocated)
  packets : s.packets.Perm s.arrived
  numbers : s.arrived.map Packet.number = List.range s.arrived.length
  skipped : ∀ p ∈ s.skipped, p.data.getSize < 2
  default : s.default.Fifo ∧ s.default.salvaged = []
  entries : ∀ e ∈ s.entries, QueueEntryOk e
  sockets : s.entries.Pairwise Distinct
  found : ∀ r ∈ s.reads, FoundIn s.entries r
  ordered : s.overlapped = false → Ordered s.arrived.length s.reads s.default s.entries

variable {s : Router}

/-- What was delivered arrived before the packet of a call of `DoRead`, if there is one call
at a time. -/
theorem Inv.lt_of_pending (h : Inv s) (ho : s.overlapped = false) {r : Reading} (hr : r ∈ s.reads)
    {p q : Packet} (hp : p ∈ r.pending) (hq : q ∈ s.delivered) : q.number < p.number := by
  have hnodup : (s.packets.map Packet.number).Nodup := by
    rw [(h.packets.map Packet.number).nodup_iff, h.numbers]
    exact List.nodup_range
  have hmem : q ∈ s.arrived := h.packets.mem_iff.mp (by simp [Router.packets, hq])
  have hlt : q.number < s.arrived.length := by
    rw [← List.mem_range, ← h.numbers]
    exact List.mem_map_of_mem hmem
  have hne : q.number ≠ p.number := fun heq => by
    rw [Router.packets, List.map_append] at hnodup
    exact (List.nodup_append.mp hnodup).2.2 _ (List.mem_map_of_mem (List.mem_append_right _ hq)) _
      (List.mem_map_of_mem (List.mem_flatMap.mpr ⟨r, hr, hp⟩)) heq
  have := (h.ordered ho).pending r hr p hp
  omega

theorem inOrder_append {l : List Packet} {p : Packet} (h : InOrder l)
    (hlt : ∀ q ∈ l, q.number < p.number) : InOrder (l ++ [p]) :=
  List.pairwise_append.mpr ⟨h, List.pairwise_singleton _ _, fun q hq _ hp =>
    List.mem_singleton.mp hp ▸ hlt q hq⟩

theorem Inv.start : Inv start where
  buffers := List.Perm.refl _
  packets := List.Perm.refl _
  numbers := rfl
  skipped := fun _ hp => nomatch hp
  default := ⟨DataQueue.fifo_new, rfl⟩
  entries := fun _ he => nomatch he
  sockets := List.Pairwise.nil
  found := fun _ hr => nomatch hr
  ordered := fun _ => ⟨Nat.zero_le _, fun _ hr => (nomatch hr), List.Pairwise.nil,
    fun _ he => nomatch he⟩

/-- A change of an entry that keeps what was routed to it. -/
theorem foundIn_set {entries : List QueueEntry} {k : ℕ} {e e' : QueueEntry} {r : Reading}
    (h : FoundIn entries r) (he : entries[k]? = some e) (hrouted : e.routed ⊆ e'.routed) :
    FoundIn (entries.set k e') r := by
  cases r with
  | found item id =>
    obtain ⟨f, hf, hmem⟩ := h
    by_cases hid : k = id
    · subst hid
      obtain rfl := Option.some.inj (he.symm.trans hf)
      exact ⟨e', List.getElem?_set_self (List.getElem?_eq_some_iff.mp he).1, hrouted hmem⟩
    · exact ⟨f, (List.getElem?_set_ne hid).trans hf, hmem⟩
  | reading | read | interested | unrouted | handling | leaving => trivial

theorem foundIn_append {entries : List QueueEntry} {e : QueueEntry} {r : Reading}
    (h : FoundIn entries r) : FoundIn (entries ++ [e]) r := by
  cases r with
  | found item id =>
    obtain ⟨f, hf, hmem⟩ := h
    exact ⟨f, List.getElem?_append_left (List.getElem?_eq_some_iff.mp hf).1 ▸ hf, hmem⟩
  | reading | read | interested | unrouted | handling | leaving => trivial

/-! ### Buffers that change hands -/

theorem Inv.allocateBuffer (h : Inv s) (i : ℕ) : Inv (s.allocateBuffer i) := by
  unfold Router.allocateBuffer
  split
  · refine { h with buffers := List.perm_iff_count.mpr fun b => ?_ }
    have := List.perm_iff_count.mp h.buffers b
    simp only [places, List.count_append, List.range_succ] at this ⊢
    omega
  · exact h

theorem Inv.dropHandle (h : Inv s) (i : ℕ) : Inv (s.dropHandle i) := by
  unfold Router.dropHandle
  split
  · rename_i item hi
    refine { h with buffers := perm_of_count h.buffers fun b => ?_ }
    have := count_map_eraseIdx Item.buf hi b
    simp only [places, Router.returnBuffer, List.count_append]
    omega
  · exact h

theorem Inv.releaseHandle (h : Inv s) (i : ℕ) : Inv (s.releaseHandle i) := by
  unfold Router.releaseHandle
  split
  · rename_i item hi
    refine { h with buffers := perm_of_count h.buffers fun b => ?_ }
    have := count_map_eraseIdx Item.buf hi b
    simp only [places, List.map_append, List.map_cons, List.map_nil, List.count_append]
    omega
  · exact h

theorem Inv.adoptData (h : Inv s) (i : ℕ) : Inv (s.adoptData i) := by
  unfold Router.adoptData
  split
  · rename_i item hi
    refine { h with buffers := perm_of_count h.buffers fun b => ?_ }
    have := count_map_eraseIdx Item.buf hi b
    simp only [places, List.map_append, List.map_cons, List.map_nil, List.count_append]
    omega
  · exact h

theorem Inv.socketReturn (h : Inv s) (i : ℕ) : Inv (s.socketReturn i) := by
  unfold Router.socketReturn
  split
  · exact h
  · rename_i item hi
    refine { h with buffers := perm_of_count h.buffers fun b => ?_ }
    have := count_map_eraseIdx Item.buf hi b
    simp only [places, List.map_append, List.map_cons, List.map_nil, List.count_append]
    omega

/-! ### Registrations -/

/-- The entry a socket is found at. -/
theorem registered_of_find {socket : ℕ} {e : QueueEntry} (h : s.entries[s.find socket]? = some e) :
    e.registered = true ∧ e.socket = socket := by
  have hp := List.findIdx_of_getElem?_eq_some h
  simpa only [Bool.and_eq_true, beq_iff_eq] using hp

/-- No entry a socket is not found at. -/
theorem not_registered_of_find {socket : ℕ} (h : s.entries[s.find socket]? = none) :
    ∀ e ∈ s.entries, ¬ (e.registered = true ∧ e.socket = socket) := by
  have hlen := List.findIdx_eq_length.mp
    (le_antisymm List.findIdx_le_length (List.getElem?_eq_none_iff.mp h))
  simpa using hlen

theorem queueEntryOk_new (socket : ℕ) (handler : Bool) (type : InterestType) :
    QueueEntryOk ⟨socket, true, handler, type, DataQueue.new, [], []⟩ :=
  ⟨DataQueue.fifo_new, fun _ => rfl, fun h => Bool.noConfusion h, fun _ hp => (nomatch hp),
    fun _ hp => (nomatch hp), List.Subset.refl _⟩

theorem Inv.registerInterestAndType (h : Inv s) (socket : ℕ) (handler : Bool)
    (type : InterestType) : Inv (s.registerInterestAndType socket handler type) := by
  unfold Router.registerInterestAndType
  split
  · exact h
  · rename_i hnone
    refine { h with
      buffers := by simpa [places, DataQueue.new] using h.buffers
      packets := by simpa [Router.packets, delivered, pending, DataQueue.new] using h.packets
      entries := fun e he => ?_
      sockets := List.pairwise_append.mpr ⟨h.sockets, List.pairwise_singleton _ _, ?_⟩
      found := fun r hr => foundIn_append (h.found r hr)
      ordered := fun ho => { h.ordered ho with queues := fun e he => ?_ } }
    · rcases List.mem_append.mp he with he | he
      · exact h.entries e he
      · exact List.mem_singleton.mp he ▸ queueEntryOk_new socket handler type
    · intro e he e' he' hr _ heq
      rw [List.mem_singleton.mp he'] at heq
      exact not_registered_of_find hnone e he ⟨hr, heq⟩
    · rcases List.mem_append.mp he with he | he
      · exact (h.ordered ho).queues e he
      · exact List.mem_singleton.mp he ▸ ⟨List.Pairwise.nil, List.Pairwise.nil⟩

theorem Inv.unregisterInterest (h : Inv s) (socket : ℕ) : Inv (s.unregisterInterest socket) := by
  unfold Router.unregisterInterest
  split
  · exact h
  · rename_i e he
    have hok := h.entries e (List.mem_of_getElem? he)
    have hreg := (registered_of_find he).1
    refine { h with
      buffers := perm_of_count h.buffers fun b => ?_
      packets := perm_of_count h.packets fun p => ?_
      entries := forall_mem_set h.entries { hok with
        fifo := hok.fifo.salvage (hok.salvaged hreg)
        salvaged := fun hr => Bool.noConfusion hr
        unregistered := fun _ => rfl }
      sockets := pairwise_set h.sockets he (fun _ _ _ hr => Bool.noConfusion hr)
        fun _ _ hr => Bool.noConfusion hr
      found := fun r hr => foundIn_set (h.found r hr) he (List.Subset.refl _)
      ordered := fun ho => { h.ordered ho with
        queues := forall_mem_set (h.ordered ho).queues
          ((h.ordered ho).queues e (List.mem_of_getElem? he)) } }
    · have := count_flatMap_set (fun e : QueueEntry => e.queue.items.map Item.buf) he
        { e with registered := false, queue := e.queue.salvage } b
      simp only [DataQueue.salvage, List.map_nil, List.count_nil] at this
      simp only [places, List.count_append, DataQueue.salvage]
      omega
    · have := count_flatMap_set (fun e : QueueEntry => e.queue.pushed ++ e.handled) he
        { e with registered := false, queue := e.queue.salvage } p
      simp only [DataQueue.salvage] at this
      simp only [Router.packets, delivered, pending, List.count_append, DataQueue.salvage]
      omega


theorem Inv.changeInterest (h : Inv s) (socket : ℕ) (type : InterestType) :
    Inv (s.changeInterest socket type) := by
  unfold Router.changeInterest
  split
  · exact h
  · rename_i e he
    have hmem := List.mem_of_getElem? he
    refine { h with
      buffers := perm_of_count h.buffers fun b => ?_
      packets := perm_of_count h.packets fun p => ?_
      entries := forall_mem_set h.entries { h.entries e hmem with }
      sockets := pairwise_set h.sockets he (fun _ h => h) fun _ h => h
      found := fun r hr => foundIn_set (h.found r hr) he (List.Subset.refl _)
      ordered := fun ho => { h.ordered ho with
        queues := forall_mem_set (h.ordered ho).queues ((h.ordered ho).queues e hmem) } }
    · have := count_flatMap_set (fun e : QueueEntry => e.queue.items.map Item.buf) he
        { e with type } b
      dsimp only at this
      simp only [places, List.count_append]
      omega
    · have := count_flatMap_set (fun e : QueueEntry => e.queue.pushed ++ e.handled) he
        { e with type } p
      dsimp only at this
      simp only [Router.packets, delivered, pending, List.count_append]
      omega

/-! ### Callers' reads -/

theorem Inv.defaultRead (h : Inv s) : Inv s.defaultRead := by
  unfold Router.defaultRead
  split
  · exact h
  · rename_i item default hpop
    obtain ⟨hfifo, hsalvaged, hpushed⟩ := h.default.1.waitPop hpop
    have hitems := (DataQueue.waitPop_eq_some hpop).1
    refine { h with
      buffers := perm_of_count h.buffers fun b => ?_
      packets := by simpa only [Router.packets, delivered, pending, hpushed] using h.packets
      default := ⟨hfifo, hsalvaged.trans h.default.2⟩
      ordered := fun ho => { h.ordered ho with default := hpushed ▸ (h.ordered ho).default } }
    simp only [places, hitems, List.map_append, List.map_cons, List.map_nil, List.count_append,
      List.count_cons, List.count_nil]
    omega

theorem Inv.socketPop (h : Inv s) (i : ℕ) : Inv (s.socketPop i) := by
  unfold Router.socketPop
  split
  · exact h
  · rename_i id hid
    dsimp only
    split
    · exact { h with }
    · rename_i e he
      split
      · exact { h with }
      · rename_i item queue hpop
        have hmem := List.mem_of_getElem? he
        have hok := h.entries e hmem
        obtain ⟨hfifo, hsalvaged, hpushed⟩ := hok.fifo.waitPop hpop
        have hitems := (DataQueue.waitPop_eq_some hpop).1
        refine { h with
          buffers := perm_of_count h.buffers fun b => ?_
          packets := perm_of_count h.packets fun p => ?_
          entries := forall_mem_set h.entries { hok with
            fifo := hfifo
            salvaged := fun hr => hsalvaged.trans (hok.salvaged hr)
            unregistered := fun hr => absurd (hok.unregistered hr) (by simp [hitems])
            socket := by simpa only [hpushed] using hok.socket }
          sockets := pairwise_set h.sockets he (fun _ h => h) fun _ h => h
          found := fun r hr => foundIn_set (h.found r hr) he (List.Subset.refl _)
          ordered := fun ho => { h.ordered ho with
            queues := forall_mem_set (h.ordered ho).queues
              (by simpa only [hpushed] using (h.ordered ho).queues e hmem) } }
        · have := count_flatMap_set (fun e : QueueEntry => e.queue.items.map Item.buf) he
            { e with queue } b
          simp only [hitems, List.map_cons, List.count_cons] at this
          simp only [places, List.map_append, List.map_cons, List.map_nil, List.count_append,
            List.count_cons, List.count_nil]
          omega
        · have := count_flatMap_set (fun e : QueueEntry => e.queue.pushed ++ e.handled) he
            { e with queue } p
          simp only [hpushed] at this
          simp only [Router.packets, delivered, pending, List.count_append]
          omega

/-! ### The read loop -/

/-- A call of `DoRead` goes on with the buffer and the packet it has. -/
theorem Inv.setRead (h : Inv s) {i : ℕ} {r r' : Reading} (hr : s.reads[i]? = some r)
    (hbuf : r'.buf = r.buf) (hpending : r'.pending = r.pending) (hfound : FoundIn s.entries r') :
    Inv (s.setRead i r') := by
  refine { h with
    buffers := perm_of_count h.buffers fun b => ?_
    packets := perm_of_count h.packets fun p => ?_
    found := forall_mem_set h.found hfound
    ordered := fun ho => { h.ordered ho with
      single := by simpa [Router.setRead] using (h.ordered ho).single
      pending := forall_mem_set (h.ordered ho).pending
        (hpending ▸ (h.ordered ho).pending r (List.mem_of_getElem? hr)) } }
  · have := count_map_set Reading.buf hr r' b
    rw [hbuf] at this
    simp only [places, Router.setRead, List.count_append]
    omega
  · have := count_flatMap_set Reading.pending hr r' p
    rw [hpending] at this
    simp only [Router.packets, delivered, pending, Router.setRead, List.count_append]
    omega

theorem Inv.doRead (h : Inv s) : Inv s.doRead := by
  unfold Router.doRead
  split
  · exact h
  · have hordered : (s.overlapped || !s.reads.isEmpty) = false → ∀ r : Reading, r.pending = [] →
        Ordered s.arrived.length (s.reads ++ [r]) s.default s.entries := by
      intro ho r hr
      obtain ⟨ho, hreads⟩ : s.overlapped = false ∧ s.reads = [] := by simpa using ho
      refine { h.ordered ho with single := by simp [hreads], pending := ?_ }
      simp [hreads, hr]
    dsimp only
    split
    · rename_i hfree
      refine { h with
        buffers := List.perm_iff_count.mpr fun b => ?_
        packets := by simpa [Router.packets, delivered, pending, Reading.pending] using h.packets
        found := List.forall_mem_append.mpr ⟨h.found, List.forall_mem_singleton.mpr trivial⟩
        ordered := fun ho => hordered ho _ rfl }
      have := List.perm_iff_count.mp h.buffers b
      simp only [places, hfree, List.count_append, List.range_succ, List.map_append, List.map_cons,
        List.map_nil, Reading.buf] at this ⊢
      omega
    · rename_i buf free hfree
      refine { h with
        buffers := perm_of_count h.buffers fun b => ?_
        packets := by simpa [Router.packets, delivered, pending, Reading.pending] using h.packets
        found := List.forall_mem_append.mpr ⟨h.found, List.forall_mem_singleton.mpr trivial⟩
        ordered := fun ho => hordered ho _ rfl }
      simp only [places, hfree, List.count_append, List.count_cons, List.count_nil,
        List.map_append, List.map_cons, List.map_nil, Reading.buf]
      omega

theorem Inv.bulkRead (h : Inv s) (i : ℕ) (result : BulkRead) : Inv (s.bulkRead i result) := by
  unfold Router.bulkRead
  split
  · rename_i buf hr
    cases result with
    | nothing => exact h.setRead hr rfl rfl trivial
    | timeout => exact h.setRead hr rfl rfl trivial
    | usbError =>
      exact Inv.setRead (s := { s with seenUsbError := true }) { h with } hr rfl rfl trivial
    | packet data =>
      dsimp only
      refine { h with
        buffers := perm_of_count h.buffers fun b => ?_
        packets := List.perm_iff_count.mpr fun p => ?_
        numbers := by simp [Router.setRead, h.numbers, List.range_succ]
        found := forall_mem_set h.found trivial
        ordered := fun ho => { h.ordered ho with
          single := by simpa [Router.setRead] using (h.ordered ho).single
          pending := ?_ } }
      · have := count_map_set Reading.buf hr (.read ⟨buf, s.arrived.length, data⟩) b
        simp only [Reading.buf] at this
        simp only [places, Router.setRead, List.count_append]
        omega
      · have := List.perm_iff_count.mp h.packets p
        have := count_flatMap_set Reading.pending hr (.read ⟨buf, s.arrived.length, data⟩) p
        simp only [Reading.pending, List.count_nil] at this
        simp only [Router.packets, delivered, pending, Router.setRead, List.count_append] at *
        omega
      · have hset := set_eq_singleton (h.ordered ho).single hr (.read ⟨buf, s.arrived.length, data⟩)
        simp only [Router.setRead, hset]
        simp [Reading.pending]
  · exact h

/-- A packet without a socket is not delivered. -/
theorem Inv.skip (h : Inv s) {i : ℕ} {item : Item} (hr : s.reads[i]? = some (.read item))
    (hsize : item.packet.data.getSize < 2) :
    Inv (Router.setRead { s with skipped := s.skipped ++ [item.packet] } i
      (.leaving item.buf)) := by
  refine { h with
    buffers := perm_of_count h.buffers fun b => ?_
    packets := perm_of_count h.packets fun p => ?_
    skipped := fun p hp => ?_
    found := forall_mem_set h.found trivial
    ordered := fun ho => { h.ordered ho with
      single := by simpa [Router.setRead] using (h.ordered ho).single
      pending := forall_mem_set (h.ordered ho).pending fun p hp => nomatch hp } }
  · have := count_map_set Reading.buf hr (.leaving item.buf) b
    simp only [Reading.buf] at this
    simp only [places, Router.setRead, List.count_append]
    omega
  · have := count_flatMap_set Reading.pending hr (.leaving item.buf) p
    simp only [Reading.pending, List.count_nil] at this
    simp only [Router.packets, delivered, pending, Router.setRead, List.count_append]
    omega
  · rcases List.mem_append.mp hp with hp | hp
    · exact h.skipped p hp
    · exact List.mem_singleton.mp hp ▸ hsize

theorem Inv.checkSize (h : Inv s) (i : ℕ) : Inv (s.checkSize i) := by
  unfold Router.checkSize
  split
  · rename_i item hr
    split
    · rename_i hsize
      exact h.skip hr hsize
    · split
      · exact h.setRead hr rfl rfl trivial
      · exact h.setRead hr rfl rfl trivial
  · exact h

theorem mem_delivered {e : QueueEntry} {p : Packet} (he : e ∈ s.entries)
    (hp : p ∈ e.queue.pushed ++ e.handled) : p ∈ s.delivered :=
  List.mem_append_right _ (List.mem_flatMap.mpr ⟨e, he, hp⟩)

/-- What is left of a call of `DoRead` after it returned. -/
theorem Ordered.endRead {arrived : ℕ} {reads : List Reading} {default : DataQueue}
    {entries : List QueueEntry} (h : Ordered arrived reads default entries) (i : ℕ) :
    Ordered arrived (reads.eraseIdx i) default entries :=
  { h with
    single := (List.length_eraseIdx_le reads i).trans h.single
    pending := fun r hr => h.pending r (List.mem_of_mem_eraseIdx hr) }

/-- A packet for its socket goes into the queue of an entry. -/
theorem Inv.push (h : Inv s) {i id : ℕ} {item : Item} {e : QueueEntry}
    (hr : s.reads[i]? = some (.interested item)) (he : s.entries[id]? = some e)
    (hreg : e.registered = true) (hsocket : socketOf item.packet.data = e.socket) :
    Inv (s.push i id e item) := by
  have hmem := List.mem_of_getElem? he
  have hok := h.entries e hmem
  refine { h with
    buffers := perm_of_count h.buffers fun b => ?_
    packets := perm_of_count h.packets fun p => ?_
    entries := forall_mem_set h.entries { hok with
      fifo := hok.fifo.push (hok.salvaged hreg) item
      salvaged := hok.salvaged
      unregistered := fun hno => absurd (hreg.symm.trans hno) Bool.noConfusion
      socket := fun p hp => ?_ }
    sockets := pairwise_set h.sockets he (fun _ h => h) fun _ h => h
    found := fun r hr =>
      foundIn_set (h.found r (List.mem_of_mem_eraseIdx hr)) he (List.Subset.refl _)
    ordered := fun ho => { (h.ordered ho).endRead i with
      queues := forall_mem_set (h.ordered ho).queues ⟨?_, ((h.ordered ho).queues e hmem).2⟩ } }
  · have := count_map_eraseIdx Reading.buf hr b
    have := count_flatMap_set (fun e : QueueEntry => e.queue.items.map Item.buf) he
      { e with queue := e.queue.push item } b
    simp only [DataQueue.push, Reading.buf, List.map_append, List.map_cons, List.map_nil,
      List.count_append] at *
    simp only [places, Router.push, endRead, DataQueue.push, List.count_append]
    omega
  · have := count_flatMap_eraseIdx Reading.pending hr p
    have := count_flatMap_set (fun e : QueueEntry => e.queue.pushed ++ e.handled) he
      { e with queue := e.queue.push item } p
    simp only [DataQueue.push, Reading.pending, List.count_append] at *
    simp only [Router.packets, delivered, pending, Router.push, endRead, DataQueue.push,
      List.count_append]
    omega
  · simp only [DataQueue.push, List.mem_append, List.mem_singleton] at hp
    rcases hp with (hp | rfl) | hp
    · exact hok.socket p (List.mem_append_left _ hp)
    · exact hsocket
    · exact hok.socket p (List.mem_append_right _ hp)
  · exact inOrder_append ((h.ordered ho).queues e hmem).1 fun q hq =>
      h.lt_of_pending ho (List.mem_of_getElem? hr) (List.mem_singleton_self _)
        (mem_delivered hmem (List.mem_append_left _ hq))

/-- A packet for its socket is routed to the handler of an entry. -/
theorem Inv.find (h : Inv s) {i id : ℕ} {item : Item} {e : QueueEntry}
    (hr : s.reads[i]? = some (.interested item)) (he : s.entries[id]? = some e)
    (hsocket : socketOf item.packet.data = e.socket)
    (hseq : isSequencePacket item.packet.data = false) :
    Inv (Router.setRead { s with
      entries := s.entries.set id { e with routed := e.routed ++ [item.packet] } } i
        (.found item id)) := by
  have hmem := List.mem_of_getElem? he
  have hok := h.entries e hmem
  refine { h with
    buffers := perm_of_count h.buffers fun b => ?_
    packets := perm_of_count h.packets fun p => ?_
    entries := forall_mem_set h.entries { hok with
      socket := fun p hp => ?_
      routed := fun p hp => ?_
      handled := fun p hp => List.mem_append_left _ (hok.handled hp) }
    sockets := pairwise_set h.sockets he (fun _ h => h) fun _ h => h
    found := forall_mem_set
      (fun r hr => foundIn_set (h.found r hr) he (List.subset_append_left _ _))
      ⟨_, List.getElem?_set_self (List.getElem?_eq_some_iff.mp he).1, by simp⟩
    ordered := fun ho => { h.ordered ho with
      single := by simpa [Router.setRead] using (h.ordered ho).single
      pending := forall_mem_set (h.ordered ho).pending
        ((h.ordered ho).pending (.interested item) (List.mem_of_getElem? hr))
      queues := forall_mem_set (h.ordered ho).queues ((h.ordered ho).queues e hmem) } }
  · have := count_map_set Reading.buf hr (.found item id) b
    have := count_flatMap_set (fun e : QueueEntry => e.queue.items.map Item.buf) he
      { e with routed := e.routed ++ [item.packet] } b
    simp only [Reading.buf] at *
    simp only [places, Router.setRead, List.count_append]
    omega
  · have := count_flatMap_set Reading.pending hr (.found item id) p
    have := count_flatMap_set (fun e : QueueEntry => e.queue.pushed ++ e.handled) he
      { e with routed := e.routed ++ [item.packet] } p
    simp only [Reading.pending, List.count_append] at *
    simp only [Router.packets, delivered, pending, Router.setRead, List.count_append]
    omega
  · simp only [List.mem_append, List.mem_singleton] at hp
    rcases hp with hp | hp | rfl
    · exact hok.socket p (List.mem_append_left _ hp)
    · exact hok.socket p (List.mem_append_right _ hp)
    · exact hsocket
  · rcases List.mem_append.mp hp with hp | hp
    · exact hok.routed p hp
    · exact List.mem_singleton.mp hp ▸ hseq

/-- The handler of an entry gets a packet that was routed to it. -/
theorem Inv.handle (h : Inv s) {i id : ℕ} {item : Item} {e : QueueEntry}
    (hr : s.reads[i]? = some (.found item id)) (he : s.entries[id]? = some e) :
    Inv (Router.setRead { s with
      entries := s.entries.set id { e with handled := e.handled ++ [item.packet] } } i
        (.handling item)) := by
  have hmem := List.mem_of_getElem? he
  have hok := h.entries e hmem
  have hrouted : item.packet ∈ e.routed := by
    obtain ⟨f, hf, hmem⟩ := h.found _ (List.mem_of_getElem? hr)
    exact Option.some.inj (he.symm.trans hf) ▸ hmem
  refine { h with
    buffers := perm_of_count h.buffers fun b => ?_
    packets := perm_of_count h.packets fun p => ?_
    entries := forall_mem_set h.entries { hok with
      handled := List.append_subset.mpr
        ⟨hok.handled, List.cons_subset.mpr ⟨hrouted, List.nil_subset _⟩⟩ }
    sockets := pairwise_set h.sockets he (fun _ h => h) fun _ h => h
    found := forall_mem_set
      (fun r hr => foundIn_set (h.found r hr) he (List.Subset.refl _)) trivial
    ordered := fun ho => { h.ordered ho with
      single := by simpa [Router.setRead] using (h.ordered ho).single
      pending := forall_mem_set (h.ordered ho).pending fun p hp => nomatch hp
      queues := forall_mem_set (h.ordered ho).queues ⟨((h.ordered ho).queues e hmem).1, ?_⟩ } }
  · have := count_map_set Reading.buf hr (.handling item) b
    have := count_flatMap_set (fun e : QueueEntry => e.queue.items.map Item.buf) he
      { e with handled := e.handled ++ [item.packet] } b
    simp only [Reading.buf] at *
    simp only [places, Router.setRead, List.count_append]
    omega
  · have := count_flatMap_set Reading.pending hr (.handling item) p
    have := count_flatMap_set (fun e : QueueEntry => e.queue.pushed ++ e.handled) he
      { e with handled := e.handled ++ [item.packet] } p
    simp only [Reading.pending, List.count_nil, List.count_append] at *
    simp only [Router.packets, delivered, pending, Router.setRead, List.count_append]
    omega
  · exact inOrder_append ((h.ordered ho).queues e hmem).2 fun q hq =>
      h.lt_of_pending ho (List.mem_of_getElem? hr) (List.mem_singleton_self _)
        (mem_delivered hmem (List.mem_append_right _ hq))

/-- The call of a handler comes too late. -/
theorem Inv.dangle (h : Inv s) {i id : ℕ} {item : Item}
    (hr : s.reads[i]? = some (.found item id)) :
    Inv (Router.setRead { s with dangling := s.dangling ++ [item.packet] } i
      (.leaving item.buf)) := by
  refine { h with
    buffers := perm_of_count h.buffers fun b => ?_
    packets := perm_of_count h.packets fun p => ?_
    found := forall_mem_set h.found trivial
    ordered := fun ho => { h.ordered ho with
      single := by simpa [Router.setRead] using (h.ordered ho).single
      pending := forall_mem_set (h.ordered ho).pending fun p hp => nomatch hp } }
  · have := count_map_set Reading.buf hr (.leaving item.buf) b
    simp only [Reading.buf] at this
    simp only [places, Router.setRead, List.count_append]
    omega
  · have := count_flatMap_set Reading.pending hr (.leaving item.buf) p
    simp only [Reading.pending, List.count_nil] at this
    simp only [Router.packets, delivered, pending, Router.setRead, List.count_append]
    omega

theorem Inv.dataReceived (h : Inv s) (i : ℕ) : Inv (s.dataReceived i) := by
  unfold Router.dataReceived
  split
  · rename_i item id hr
    split
    · exact h
    · rename_i e he
      split
      · exact h.handle hr he
      · exact h.dangle hr
  · exact h

theorem Inv.route (h : Inv s) (i : ℕ) : Inv (s.route i) := by
  unfold Router.route
  split
  · rename_i item hr
    split
    · unfold queuePacket
      split
      · exact h.setRead hr rfl rfl trivial
      · rename_i e he
        obtain ⟨hreg, hsocket⟩ := registered_of_find he
        split
        · exact h.push hr he hreg hsocket.symm
        · exact h.setRead hr rfl rfl trivial
    · rename_i hseq
      unfold routeOrQueuePacket
      split
      · exact h.setRead hr rfl rfl trivial
      · rename_i e he
        obtain ⟨hreg, hsocket⟩ := registered_of_find he
        split
        · exact h.find hr he hsocket.symm (Bool.eq_false_iff.mpr hseq)
        · exact h.push hr he hreg hsocket.symm
  · exact h

theorem Inv.queueDefault (h : Inv s) (i : ℕ) : Inv (s.queueDefault i) := by
  unfold Router.queueDefault
  split
  · rename_i item hr
    refine { h with
      buffers := perm_of_count h.buffers fun b => ?_
      packets := perm_of_count h.packets fun p => ?_
      default := ⟨h.default.1.push h.default.2 item, h.default.2⟩
      found := fun r hr => h.found r (List.mem_of_mem_eraseIdx hr)
      ordered := fun ho => { (h.ordered ho).endRead i with default := ?_ } }
    · have := count_map_eraseIdx Reading.buf hr b
      simp only [Reading.buf] at this
      simp only [places, endRead, DataQueue.push, List.map_append, List.map_cons, List.map_nil,
        List.count_append]
      omega
    · have := count_flatMap_eraseIdx Reading.pending hr p
      simp only [Reading.pending] at this
      simp only [Router.packets, delivered, pending, endRead, DataQueue.push, List.count_append]
      omega
    · exact inOrder_append (h.ordered ho).default fun q hq =>
        h.lt_of_pending ho (List.mem_of_getElem? hr) (List.mem_singleton_self _)
          (List.mem_append_left _ hq)
  · exact h

theorem Inv.handlerEnds (h : Inv s) (i : ℕ) (result : Handling) : Inv (s.handlerEnds i result) := by
  unfold Router.handlerEnds
  split
  · rename_i item hr
    cases result with
    | usbError =>
      exact Inv.setRead (s := { s with seenUsbError := true }) { h with } hr rfl rfl trivial
    | returns => exact h.setRead hr rfl rfl trivial
    | timeout => exact h.setRead hr rfl rfl trivial
    | otherException => exact h.setRead hr rfl rfl trivial
  · exact h

theorem Inv.leave (h : Inv s) (i : ℕ) : Inv (s.leave i) := by
  unfold Router.leave
  split
  · rename_i buf hr
    refine { h with
      buffers := perm_of_count h.buffers fun b => ?_
      packets := perm_of_count h.packets fun p => ?_
      found := fun r hr => h.found r (List.mem_of_mem_eraseIdx hr)
      ordered := fun ho => (h.ordered ho).endRead i }
    · have := count_map_eraseIdx Reading.buf hr b
      simp only [Reading.buf] at this
      simp only [places, returnBuffer, endRead, List.count_append]
      omega
    · have := count_flatMap_eraseIdx Reading.pending hr p
      simp only [Reading.pending, List.count_nil] at this
      simp only [Router.packets, delivered, pending, returnBuffer, endRead, List.count_append]
      omega
  · exact h

/-! ### Runs -/

theorem Inv.step (h : Inv s) (label : Label) : Inv (s.step label) := by
  cases label with
  | allocateBuffers count => exact { h with }
  | allocateBuffer i => exact h.allocateBuffer i
  | setUsbDevice => exact { h with }
  | clearUsbDevice => exact { h with }
  | simpleReadThread => exact { h with }
  | registerInterest socket handler type => exact h.registerInterestAndType socket handler type
  | unregisterInterest socket => exact h.unregisterInterest socket
  | changeInterest socket type => exact h.changeInterest socket type
  | defaultRead => exact h.defaultRead
  | socketRead socket =>
    unfold Router.step socketRead
    dsimp only
    split
    · exact h
    · exact { h with }
  | socketPop i => exact h.socketPop i
  | socketReturn i => exact h.socketReturn i
  | dropHandle i => exact h.dropHandle i
  | releaseHandle i => exact h.releaseHandle i
  | adoptData i => exact h.adoptData i
  | doRead => exact h.doRead
  | bulkRead i result => exact h.bulkRead i result
  | checkSize i => exact h.checkSize i
  | route i => exact h.route i
  | dataReceived i => exact h.dataReceived i
  | queueDefault i => exact h.queueDefault i
  | handlerEnds i result => exact h.handlerEnds i result
  | leave i => exact h.leave i

theorem Inv.run (labels : List Label) : Inv (run labels) :=
  List.foldlRecOn labels Router.step Inv.start fun _ h label _ => h.step label

/-- Only a call of a handler leaves a dangling packet. -/
theorem dangling_of_ne_dataReceived {label : Label} (hlabel : ∀ i, label ≠ .dataReceived i) :
    (s.step label).dangling = s.dangling := by
  cases label with
  | dataReceived i => exact absurd rfl (hlabel i)
  | allocateBuffers | setUsbDevice | clearUsbDevice | simpleReadThread => rfl
  | allocateBuffer i => simp only [Router.step, allocateBuffer]; split <;> rfl
  | registerInterest socket handler type =>
    simp only [Router.step, registerInterestAndType]; split <;> rfl
  | unregisterInterest socket => simp only [Router.step, unregisterInterest]; split <;> rfl
  | changeInterest socket type => simp only [Router.step, changeInterest]; split <;> rfl
  | defaultRead => simp only [Router.step, defaultRead]; split <;> rfl
  | socketRead socket => simp only [Router.step, socketRead]; split <;> rfl
  | socketPop i =>
    simp only [Router.step, socketPop]
    split
    · rfl
    · split
      · rfl
      · split <;> rfl
  | socketReturn i => simp only [Router.step, socketReturn]; split <;> rfl
  | dropHandle i => simp only [Router.step, dropHandle]; split <;> rfl
  | releaseHandle i => simp only [Router.step, releaseHandle]; split <;> rfl
  | adoptData i => simp only [Router.step, adoptData]; split <;> rfl
  | doRead =>
    simp only [Router.step, doRead]
    split
    · rfl
    · split <;> rfl
  | bulkRead i result =>
    simp only [Router.step, bulkRead]
    split
    · cases result <;> rfl
    · rfl
  | checkSize i =>
    simp only [Router.step, checkSize]
    split
    · split
      · rfl
      · split <;> rfl
    · rfl
  | route i =>
    simp only [Router.step, route, queuePacket, routeOrQueuePacket]
    split
    · split
      · split
        · rfl
        · split <;> rfl
      · split
        · rfl
        · split <;> rfl
    · rfl
  | queueDefault i => simp only [Router.step, queueDefault]; split <;> rfl
  | handlerEnds i result =>
    simp only [Router.step, handlerEnds]
    split
    · cases result <;> rfl
    · rfl
  | leave i => simp only [Router.step, leave]; split <;> rfl

/-- A step leaves a dangling packet exactly if it calls the handler of an entry that was
erased. -/
theorem dangling_step_iff (label : Label) :
    (s.step label).dangling = [] ↔
      s.dangling = [] ∧ ∀ i, label = .dataReceived i → s.Held i := by
  by_cases hlabel : ∃ i, label = .dataReceived i
  · obtain ⟨i, rfl⟩ := hlabel
    have hheld : (∀ j, Label.dataReceived i = .dataReceived j → s.Held j) ↔ s.Held i :=
      ⟨fun h => h i rfl, fun h j hj => Label.dataReceived.inj hj ▸ h⟩
    rw [hheld, Router.step, dataReceived]
    split
    · rename_i item id hr
      split
      · rename_i he
        refine ⟨fun h => ⟨h, fun item' id' e' hr' he' => ?_⟩, And.left⟩
        obtain ⟨-, rfl⟩ := Reading.found.inj (Option.some.inj (hr.symm.trans hr'))
        exact absurd (he.symm.trans he') (Option.some_ne_none _).symm
      · rename_i e he
        split
        · rename_i hreg
          refine ⟨fun h => ⟨h, fun item' id' e' hr' he' => ?_⟩, And.left⟩
          obtain ⟨-, rfl⟩ := Reading.found.inj (Option.some.inj (hr.symm.trans hr'))
          exact Option.some.inj (he.symm.trans he') ▸ hreg
        · rename_i hreg
          exact ⟨fun h => absurd h (by simp [setRead]), fun h => absurd (h.2 item id e hr he) hreg⟩
    · rename_i hnone
      exact ⟨fun h => ⟨h, fun item id e hr => absurd hr (hnone item id)⟩, And.left⟩
  · rw [dangling_of_ne_dataReceived (not_exists.mp hlabel)]
    exact ⟨fun h => ⟨h, fun i hi => absurd ⟨i, hi⟩ hlabel⟩, And.left⟩

/-- A run leaves no dangling packet exactly if every handler it calls is that of an entry that
is still there. -/
theorem dangling_run_iff (labels : List Label) : (run labels).dangling = [] ↔
    ∀ before i after, labels = before ++ .dataReceived i :: after → (run before).Held i := by
  induction labels using List.reverseRecOn with
  | nil => exact ⟨fun _ before i after h => by simp at h, fun _ => rfl⟩
  | append_singleton labels label ih =>
    rw [run, List.foldl_append, List.foldl_cons, List.foldl_nil, ← run, dangling_step_iff, ih]
    constructor
    · rintro ⟨hbefore, hlast⟩ before i after h
      rcases List.eq_nil_or_concat after with rfl | ⟨after, label', rfl⟩
      · obtain ⟨rfl, hlabel⟩ := List.append_inj' h rfl
        exact hlast i (List.singleton_inj.mp hlabel)
      · rw [List.concat_eq_append, ← List.cons_append, ← List.append_assoc] at h
        exact hbefore before i after (List.append_inj_left' h rfl)
    · intro h
      refine ⟨fun before i after hl => h before i (after ++ [label]) (by simp [hl]), fun i hi => ?_⟩
      exact h labels i [] (by rw [hi])

/-- In every state that a run of labels leaves : every allocated buffer is in one place, every
packet that arrived is in one place, undelivered only if it is too short to name a socket or
its handler was called through an entry that was erased, the queues are first in, first out,
and if there is one call of `DoRead` at a time, the packets of every queue and handler are in
the order of arrival. No packet is dangling exactly if every entry whose handler was called
was still there. -/
theorem places_of_run (labels : List Label) :
    (run labels).places.Perm (List.range (run labels).allocated) ∧
    (run labels).packets.Perm (run labels).arrived ∧
    (run labels).arrived.map Packet.number = List.range (run labels).arrived.length ∧
    (∀ p ∈ (run labels).skipped, p.data.getSize < 2) ∧
    ((run labels).dangling = [] ↔
      ∀ before i after, labels = before ++ .dataReceived i :: after → (run before).Held i) ∧
    (run labels).default.pushed =
      (run labels).default.taken ++ (run labels).default.items.map Item.packet ∧
    (run labels).entries.Pairwise Distinct ∧
    (∀ e ∈ (run labels).entries,
      (e.registered = true →
        e.queue.pushed = e.queue.taken ++ e.queue.items.map Item.packet) ∧
      (e.registered = false → e.queue.items = [] ∧ e.queue.pushed =
        e.queue.taken ++ e.queue.salvaged) ∧
      (∀ p ∈ e.queue.pushed ++ e.handled, socketOf p.data = e.socket) ∧
      ∀ p ∈ e.handled, isSequencePacket p.data = false) ∧
    ((run labels).overlapped = false →
      InOrder (run labels).default.taken ∧
      ∀ e ∈ (run labels).entries, InOrder e.queue.taken ∧ InOrder e.handled) := by
  have h := Inv.run labels
  refine ⟨h.buffers, h.packets, h.numbers, h.skipped, dangling_run_iff labels, ?_, h.sockets,
    fun e he => ?_, fun ho => ?_⟩
  · simpa [h.default.2] using h.default.1.1
  · have hok := h.entries e he
    refine ⟨fun hr => ?_, fun hr => ⟨hok.unregistered hr, ?_⟩, fun p hp => hok.socket p ?_,
      fun p hp => hok.routed p (hok.handled hp)⟩
    · simpa [hok.salvaged hr] using hok.fifo.1
    · simpa [hok.unregistered hr] using hok.fifo.1
    · rcases List.mem_append.mp hp with hp | hp
      · exact List.mem_append_left _ hp
      · exact List.mem_append_right _ (hok.handled hp)
  · refine ⟨(h.ordered ho).default.sublist h.default.1.taken_sublist, fun e he => ?_⟩
    obtain ⟨hpushed, hhandled⟩ := (h.ordered ho).queues e he
    exact ⟨hpushed.sublist (h.entries e he).fifo.taken_sublist, hhandled⟩

/-- A socket is unregistered between the lookup of its handler and the call. -/
def erasedEntryRun : List Label :=
  [.setUsbDevice, .registerInterest 5 true .sequenceAndDataPackets, .doRead,
    .bulkRead 0 (.packet (Data.ofBytes [5, 0, 5, 0, 1])), .checkSize 0, .route 0,
    .unregisterInterest 5, .dataReceived 0]

example : (run erasedEntryRun).dangling = (run erasedEntryRun).arrived ∧
    (run erasedEntryRun).delivered = [] := by decide

/-- A device sends a packet of one byte. -/
def shortPacketRun : List Label :=
  [.allocateBuffers 1, .allocateBuffer 0, .setUsbDevice, .doRead,
    .bulkRead 0 (.packet (Data.ofBytes [7])), .checkSize 0, .leave 0]

/-- Two packets for a socket that is registered between them, and the second one is read. The
caller takes the buffer out of its handle. -/
def lateRegistrationRun : List Label :=
  [.setUsbDevice, .doRead, .bulkRead 0 (.packet (Data.ofBytes [5, 0, 5, 0, 1])), .checkSize 0,
    .queueDefault 0, .registerInterest 5 false .sequenceAndDataPackets, .doRead,
    .bulkRead 0 (.packet (Data.ofBytes [5, 0, 5, 0, 2])), .checkSize 0, .route 0, .socketRead 5,
    .socketPop 0, .socketReturn 0, .releaseHandle 0]

/-- A packet of one byte is delivered nowhere. Of two packets for a socket, the second one is
taken while the first one is in the default queue, and its buffer is in no queue, read or
handle once it is released. -/
theorem lateRegistration_overtakes :
    ((run shortPacketRun).arrived.length = 1 ∧ (run shortPacketRun).reads = [] ∧
      (run shortPacketRun).delivered = []) ∧
    (∃ p ∈ (run lateRegistrationRun).default.items.map Item.packet,
      ∃ e ∈ (run lateRegistrationRun).entries, ∃ q ∈ e.queue.taken,
        socketOf p.data = socketOf q.data ∧ p.number < q.number) ∧
    1 < (run lateRegistrationRun).allocated ∧
    (run lateRegistrationRun).reads = [] ∧ (run lateRegistrationRun).handles = [] ∧
    1 ∉ (run lateRegistrationRun).free ∧
    1 ∉ (run lateRegistrationRun).default.items.map Item.buf ∧
    ∀ e ∈ (run lateRegistrationRun).entries, 1 ∉ e.queue.items.map Item.buf := by
  decide

end Router

end Barry
