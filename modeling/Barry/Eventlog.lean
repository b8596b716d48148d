import Barry.JavaLoader
import Barry.Lib.Packed
import Barry.Lib.Words

/-!
# The event log

`JavaLoader::GetEventlog` asks for the number of log entries and then for them one by one. The
number is read from the seventh byte of its packet on, and the text of an entry from the seventh
byte of its own, as long as the packet says ; `checkSize` asks for six bytes both times. A read
outside of the packet received is a fault here, also where the buffer goes on behind it.

So the log is read from the packets alone if they reach as far as they say (`LogFits`), and only
then (`getEventlog_ne_fault_iff`).
-/

namespace Barry

open Protocol JavaLoader

/-! ## The text of an entry -/

/-- `JLEventlogEntry`. The severity and the type are the numbers of the protocol, which
`SeverityProto2Rec` and `ViewerTypeProto2Rec` pass through. -/
structure JLEventlogEntry where
  guid : Bytes
  msTimestamp : ℕ
  severity : ℕ
  type : ℕ
  app : Bytes
  data : Bytes
  deriving DecidableEq

namespace JLEventlogEntry

/-- The fields of the text `src`, from the time on under `std::hex`. -/
def ofText (src : Bytes) : Except Error JLEventlogEntry :=
  let ss : TextStream := ⟨src, false⟩
  let (guid, ss) := (ss.ignore 5).extractWord
  if ss.fail then .error (.badData "JLEventlogEntry:Parse bad guid field")
  else
  let (msTimestamp, ss) := extractHex (2 ^ 64 - 1) (ss.ignore 6)
  if ss.fail then .error (.badData "JLEventlogEntry:Parse bad time field")
  else
  let (severity, ss) := extractHex (2 ^ 32 - 1) (ss.ignore 10)
  if ss.fail then .error (.badData "JLEventlogEntry:Parse bad severity field")
  else
  let (type, ss) := extractHex (2 ^ 32 - 1) (ss.ignore 6)
  if ss.fail then .error (.badData "JLEventlogEntry:Parse bad type field")
  else
  let (app, ss) := (ss.ignore 5).extractWord
  if ss.fail then .error (.badData "JLEventlogEntry:Parse bad app field")
  else
  let (data, ss) := (ss.ignore 6).extractRest
  if ss.fail then .error (.badData "JLEventlogEntry:Parse bad data field")
  else .ok ⟨guid, msTimestamp.getD 0, severity.getD 0, type.getD 0, app, data⟩

/-- `Parse`, over the bytes from the pointer on. -/
def parse (size : ℕ) (buf : Bytes) : Except Error JLEventlogEntry :=
  match readAt buf 0 size with
  | none => .error (.fault "JLEventlogEntry::Parse")
  | some src => ofText src

end JLEventlogEntry

namespace JavaLoader

/-! ## The log -/

/-- A number of two bytes in a packet, high byte first. -/
def fieldAt (response : Data) (pos : ℕ) : Except Error ℕ :=
  match readAt response.getData pos 2 with
  | none => .error (.fault "JavaLoader::GetEventlog")
  | some bytes => .ok (beNat bytes)

/-- The number of log entries : `u.response.expect`, behind two other bytes. -/
def logCount (response : Data) : Except Error ℕ := do
  checkSize response (jlPacketHeaderSize + 2)
  fieldAt response (jlPacketHeaderSize + 2)

/-- The entry in a packet : `u.logentry.size` and the text behind it. -/
def logEntry (response : Data) : Except Error JLEventlogEntry := do
  checkSize response (jlPacketHeaderSize + 2)
  let size ← fieldAt response jlPacketHeaderSize
  JLEventlogEntry.parse size (response.getData.drop (jlPacketHeaderSize + 2))

/-- A turn of the loop in `GetEventlog`, without the `push_back`. -/
def readLogEntry (s : Socket) (p : JLPacket) (i : UInt16) :
    Except Error (Socket × JLPacket × JLEventlogEntry) := do
  let p ← p.getEventlogEntry i
  let (s, p) ← exchange "JavaLoader::GetEventlog" s p
  let entry ← logEntry p.receive
  return (s, p, entry)

/-- The loop in `GetEventlog`, from entry `i` on, for the turns that are left. -/
def readLog : ℕ → UInt16 → Socket → JLPacket → List JLEventlogEntry →
    Except Error (Socket × List JLEventlogEntry)
  | 0, _, s, _, log => .ok (s, log)
  | turns + 1, i, s, p, log => do
    let (s, p, entry) ← readLogEntry s p i
    readLog turns (i + 1) s p (log ++ [entry])

/-- `JavaLoader::GetEventlog`. -/
def getEventlog (s : Socket) (log : List JLEventlogEntry) :
    Except Error (Socket × List JLEventlogEntry) := do
  let p ← JLPacket.new.getEventlog
  let (s, p) ← exchange "JavaLoader::GetEventlog" s p
  let count ← logCount p.receive
  readLog count 0 s p log

/-! ## When the packets reach as far as they say -/

/-- The packet with the number of entries reaches past it. -/
def CountFits (response : Data) : Prop :=
  jlPacketHeaderSize + 4 ≤ response.getSize
  deriving Decidable

/-- The packet of an entry reaches past its text. -/
def EntryFits (response : Data) : Prop :=
  jlPacketHeaderSize + 2 + beNat (slice response.getData jlPacketHeaderSize 2) ≤ response.getSize
  deriving Decidable

/-- The text an entry's packet has is one of an entry. -/
def EntryReads (response : Data) : Prop :=
  ∃ entry, JLEventlogEntry.ofText (slice response.getData (jlPacketHeaderSize + 2)
    (beNat (slice response.getData jlPacketHeaderSize 2))) = .ok entry

/-- `EntriesFit turns reads` : the entries the reads answer with, up to `turns` of them and as far
as the one before was read, reach as far as they say. -/
def EntriesFit : ℕ → List Data → Prop
  | 0, _ => True
  | turns + 1, reads => ∀ ack response left, Acknowledged 2 reads ack (response :: left) →
      checkSize response (jlPacketHeaderSize + 2) = .ok () →
        EntryFits response ∧ (EntryReads response → EntriesFit turns left)

/-- The packets that answer `GetEventlog` reach as far as they say. -/
def LogFits (reads : List Data) : Prop :=
  ∀ ack response left, Acknowledged 1 reads ack (response :: left) →
    checkSize response (jlPacketHeaderSize + 2) = .ok () →
      CountFits response ∧ EntriesFit (beNat (slice response.getData 6 2)) left

variable {response other : Data} {what : String}

theorem ofText_ne_fault (src : Bytes) : JLEventlogEntry.ofText src ≠ .error (.fault what) := by
  unfold JLEventlogEntry.ofText
  dsimp only
  split_ifs <;> simp

theorem logCount_congr (h : response.getData = other.getData) :
    logCount response = logCount other := by
  rw [logCount, logCount, checkSize_congr h, fieldAt, fieldAt, h]

theorem logEntry_congr (h : response.getData = other.getData) :
    logEntry response = logEntry other := by
  rw [logEntry, logEntry, checkSize_congr h, fieldAt, fieldAt, h]

theorem fieldAt_of_le {pos : ℕ} (h : pos + 2 ≤ response.getSize) :
    fieldAt response pos = .ok (beNat (slice response.getData pos 2)) := by
  rw [fieldAt, readAt_of_le (by rwa [Data.length_getData])]

/-- What passes the check is read, or reaches too far. -/
theorem logCount_of_checkSize (h : checkSize response (jlPacketHeaderSize + 2) = .ok ()) :
    logCount response = if CountFits response then .ok (beNat (slice response.getData 6 2))
      else .error (.fault "JavaLoader::GetEventlog") := by
  have hbind : logCount response = fieldAt response (jlPacketHeaderSize + 2) := by
    rw [logCount, h]
    rfl
  rw [hbind]
  split_ifs with hfits
  · exact fieldAt_of_le hfits
  · rw [fieldAt, readAt, if_neg (by rw [Data.length_getData]; exact hfits)]

theorem logEntry_of_checkSize (h : checkSize response (jlPacketHeaderSize + 2) = .ok ()) :
    logEntry response =
      if EntryFits response then
        JLEventlogEntry.ofText (slice response.getData (jlPacketHeaderSize + 2)
        (beNat (slice response.getData jlPacketHeaderSize 2)))
      else .error (.fault "JLEventlogEntry::Parse") := by
  have hle := le_getSize_of_checkSize h
  have hbind : logEntry response = JLEventlogEntry.parse
      (beNat (slice response.getData jlPacketHeaderSize 2))
      (response.getData.drop (jlPacketHeaderSize + 2)) := by
    rw [logEntry, h]
    change (fieldAt response jlPacketHeaderSize >>= fun size => JLEventlogEntry.parse size _) = _
    rw [fieldAt_of_le hle]
    rfl
  have hlen : (response.getData.drop (jlPacketHeaderSize + 2)).length =
      response.getSize - (jlPacketHeaderSize + 2) := by
    rw [List.length_drop, Data.length_getData]
    rfl
  rw [hbind, JLEventlogEntry.parse, readAt, hlen]
  by_cases hfits : EntryFits response
  · rw [if_pos hfits, if_pos (by unfold EntryFits at hfits; omega)]
    simp [slice]
  · rw [if_neg hfits, if_neg (by unfold EntryFits at hfits; omega)]

/-! ## A turn -/

variable {s s' : Socket} {p p' : JLPacket} {left : List Data}

/-- A request for an entry is one of two packets. -/
theorem built_entry (p : JLPacket) (i : UInt16) : ∃ p', p.getEventlogEntry i = .ok p' ∧ p'.Built ∧
    ∀ socket, (p'.outgoing socket).length = 2 := by
  obtain ⟨p', hcmd, hbuilt, -, hout⟩ := p.idCmd_built jlGetLogEntry i
  exact ⟨p', hcmd, hbuilt, fun socket => by rw [hout]; rfl⟩

/-- A turn comes down to the packet it is answered with. -/
theorem readLogEntry_eq (i : UInt16) {ack : Data}
    (h : Acknowledged 2 s.incoming ack (response :: left)) (p : JLPacket) :
    ∃ s' p', s'.incoming = left ∧
      readLogEntry s p i = (logEntry response).map fun entry => (s', p', entry) := by
  obtain ⟨p₁, hcmd, hbuilt, hout⟩ := built_entry p i
  obtain ⟨s', p', hexchange, -, hin, -, hdata⟩ := exchange_ok "JavaLoader::GetEventlog" hbuilt
    (show Acknowledged (p₁.outgoing s.socket).length s.incoming ack
      (response :: left) by rwa [hout])
  refine ⟨s', p', hin, ?_⟩
  rw [readLogEntry, hcmd]
  change (exchange "JavaLoader::GetEventlog" s p₁ >>= fun r => logEntry r.2.receive >>= fun entry =>
    .ok (r.1, r.2, entry)) = _
  rw [hexchange]
  change (logEntry p'.receive >>= fun entry => .ok (s', p', entry)) = _
  rw [logEntry_congr hdata]
  cases logEntry response <;> rfl

/-- A turn without an answer ends in an exception. -/
theorem readLogEntry_of_unanswered (i : UInt16)
    (h : ∀ ack response left, ¬Acknowledged 2 s.incoming ack (response :: left)) (p : JLPacket) :
    ∃ e, readLogEntry s p i = .error e ∧ ∀ what, e ≠ .fault what := by
  obtain ⟨p₁, hcmd, -, hout⟩ := built_entry p i
  cases hexchange : exchange "JavaLoader::GetEventlog" s p₁ with
  | error e =>
    refine ⟨e, ?_, fun what hwhat => ?_⟩
    · rw [readLogEntry, hcmd]
      change (exchange "JavaLoader::GetEventlog" s p₁ >>= fun r => _) = _
      rw [hexchange]
      rfl
    · rw [hwhat] at hexchange
      exact exchange_ne_fault _ _ _ what hexchange
  | ok r =>
    obtain ⟨s₁, p₂⟩ := r
    obtain ⟨ack, response, hack, -⟩ := acknowledged_of_exchange hexchange
    rw [hout] at hack
    exact absurd hack (h ack response _)

/-- Packets that do not pass the check end in an exception. -/
theorem logEntry_ne_fault (hfits : checkSize response (jlPacketHeaderSize + 2) = .ok () →
    EntryFits response) : logEntry response ≠ .error (.fault what) := by
  cases hcheck : checkSize response (jlPacketHeaderSize + 2) with
  | error e =>
    rw [logEntry, hcheck]
    exact ne_fault_of_error (checkSize_ne_fault _ _ what) hcheck
  | ok u =>
    rw [logEntry_of_checkSize hcheck, if_pos (hfits hcheck)]
    exact ofText_ne_fault _

/-- The loop reads inside of the packets if the entries fit, and only then. -/
theorem readLog_ne_fault_iff : ∀ (turns : ℕ) (i : UInt16) (s : Socket) (p : JLPacket)
    (log : List JLEventlogEntry),
    (∀ what, readLog turns i s p log ≠ .error (.fault what)) ↔ EntriesFit turns s.incoming
  | 0, i, s, p, log => by simp [readLog, EntriesFit]
  | turns + 1, i, s, p, log => by
    have hstep : ∀ {ack response : Data} {left : List Data},
        Acknowledged 2 s.incoming ack (response :: left) → ∃ s' p', s'.incoming = left ∧
          readLog (turns + 1) i s p log = logEntry response >>= fun entry =>
            readLog turns (i + 1) s' p' (log ++ [entry]) := by
      intro ack response left hack
      obtain ⟨s', p', hin, hturn⟩ := readLogEntry_eq i hack p
      refine ⟨s', p', hin, ?_⟩
      rw [readLog, hturn]
      cases logEntry response <;> rfl
    constructor
    · intro h ack response left hack hcheck
      obtain ⟨s', p', hin, hrun⟩ := hstep hack
      rw [hrun, logEntry_of_checkSize hcheck] at h
      have hfits : EntryFits response := by
        by_contra hno
        rw [if_neg hno] at h
        exact h _ rfl
      refine ⟨hfits, fun ⟨entry, hentry⟩ => ?_⟩
      rw [if_pos hfits, hentry] at h
      rw [← hin]
      exact (readLog_ne_fault_iff turns (i + 1) s' p' (log ++ [entry])).mp h
    · intro h what
      by_cases hanswer : ∃ ack response left, Acknowledged 2 s.incoming ack (response :: left)
      · obtain ⟨ack, response, left, hack⟩ := hanswer
        obtain ⟨s', p', hin, hrun⟩ := hstep hack
        rw [hrun]
        refine bind_ne_fault (logEntry_ne_fault fun hcheck => (h ack response left hack hcheck).1)
          fun entry hentry => ?_
        -- an entry that was read comes from a packet that passed the check
        obtain ⟨_, hcheck, _⟩ := bind_eq_ok.mp hentry
        obtain ⟨hfits, hrest⟩ := h ack response left hack hcheck
        rw [logEntry_of_checkSize hcheck, if_pos hfits] at hentry
        have hleft := hrest ⟨entry, hentry⟩
        rw [← hin] at hleft
        exact (readLog_ne_fault_iff turns (i + 1) s' p' (log ++ [entry])).mpr hleft what
      · simp only [not_exists] at hanswer
        obtain ⟨e, hturn, he⟩ := readLogEntry_of_unanswered i hanswer p
        rw [readLog, hturn]
        exact fun hfault => he what (Except.error.inj hfault)

/-! ## The whole log -/

theorem logCount_ne_fault (hfits : checkSize response (jlPacketHeaderSize + 2) = .ok () →
    CountFits response) : logCount response ≠ .error (.fault what) := by
  cases hcheck : checkSize response (jlPacketHeaderSize + 2) with
  | error e =>
    rw [logCount, hcheck]
    exact ne_fault_of_error (checkSize_ne_fault _ _ what) hcheck
  | ok u =>
    rw [logCount_of_checkSize hcheck, if_pos (hfits hcheck)]
    simp

/-- The log comes down to the packet with the number of its entries. -/
theorem getEventlog_eq {ack : Data} (h : Acknowledged 1 s.incoming ack (response :: left))
    (log : List JLEventlogEntry) : ∃ s' p', s'.incoming = left ∧
      getEventlog s log = logCount response >>= fun count => readLog count 0 s' p' log := by
  obtain ⟨p₁, hcmd, hbuilt, -, hout⟩ := JLPacket.new.simpleCmd_built jlGetLog
  obtain ⟨s', p', hexchange, -, hin, -, hdata⟩ := exchange_ok "JavaLoader::GetEventlog" hbuilt
    (show Acknowledged (p₁.outgoing s.socket).length s.incoming ack
      (response :: left) by rwa [hout])
  refine ⟨s', p', hin, ?_⟩
  rw [getEventlog, JLPacket.getEventlog, hcmd]
  change (exchange "JavaLoader::GetEventlog" s p₁ >>= fun r => logCount r.2.receive >>= fun count =>
    readLog count 0 r.1 r.2 log) = _
  rw [hexchange, ← logCount_congr hdata]
  rfl

theorem getEventlog_of_unanswered
    (h : ∀ ack response left, ¬Acknowledged 1 s.incoming ack (response :: left))
    (log : List JLEventlogEntry) : getEventlog s log ≠ .error (.fault what) := by
  obtain ⟨p₁, hcmd, -, -, hout⟩ := JLPacket.new.simpleCmd_built jlGetLog
  rw [getEventlog, JLPacket.getEventlog, hcmd]
  change (exchange "JavaLoader::GetEventlog" s p₁ >>= fun r => _) ≠ _
  refine bind_ne_fault (exchange_ne_fault _ s p₁ what) fun ⟨s₁, p₂⟩ hexchange => ?_
  obtain ⟨ack, response, hack, -⟩ := acknowledged_of_exchange hexchange
  rw [hout] at hack
  exact absurd hack (h ack response _)

/-- Packets that do not fit are read past their ends. -/
theorem logFits_of_ne_fault {log : List JLEventlogEntry}
    (h : ∀ what, getEventlog s log ≠ .error (.fault what)) : LogFits s.incoming := by
  intro ack response left hack hcheck
  obtain ⟨s', p', hin, hrun⟩ := getEventlog_eq hack log
  rw [hrun, logCount_of_checkSize hcheck] at h
  have hfits : CountFits response := by
    by_contra hno
    rw [if_neg hno] at h
    exact h _ rfl
  rw [if_pos hfits] at h
  refine ⟨hfits, ?_⟩
  rw [← hin]
  exact (readLog_ne_fault_iff _ 0 s' p' log).mp h

/-- Whatever the device sends, the log is read from the packets alone if they reach as far
as they say, and only then. -/
theorem getEventlog_ne_fault_iff (s : Socket) (log : List JLEventlogEntry) :
    (∀ what, getEventlog s log ≠ .error (.fault what)) ↔ LogFits s.incoming := by
  refine ⟨logFits_of_ne_fault, fun h what => ?_⟩
  by_cases hanswer : ∃ ack response left, Acknowledged 1 s.incoming ack (response :: left)
  · obtain ⟨ack, response, left, hack⟩ := hanswer
    obtain ⟨s', p', hin, hrun⟩ := getEventlog_eq hack log
    rw [hrun]
    refine bind_ne_fault (logCount_ne_fault fun hcheck => (h ack response left hack hcheck).1)
      fun count hcount => ?_
    obtain ⟨_, hcheck, _⟩ := bind_eq_ok.mp hcount
    obtain ⟨hfits, hentries⟩ := h ack response left hack hcheck
    rw [logCount_of_checkSize hcheck, if_pos hfits] at hcount
    rw [← hin, Except.ok.inj hcount] at hentries
    exact (readLog_ne_fault_iff count 0 s' p' log).mpr hentries what
  · simp only [not_exists] at hanswer
    exact getEventlog_of_unanswered hanswer log

/-- The reads of a device whose log has one entry, of a hundred bytes in a packet of six. -/
def overlongReads : List Data :=
  let handshake := Data.ofBytes [0, 0, 12, 0, 0x13, 0, 0, 0, 0, 0, 0, 0]
  let ack := Data.ofBytes [5, 0, 8, 0, 0x64, 0, 0, 0]
  [handshake, ack, Data.ofBytes [5, 0, 8, 0, 0, 0, 0, 1],
    handshake, handshake, ack, Data.ofBytes [5, 0, 6, 0, 0, 100]]

/-- The text of that entry is read past the end of its packet. -/
theorem getEventlog_overlong : ∃ what,
    getEventlog ⟨5, Data.default, overlongReads, []⟩ [] = .error (.fault what) := by
  by_contra hno
  have hfits : LogFits overlongReads := logFits_of_ne_fault fun what h => hno ⟨what, h⟩
  obtain ⟨-, hentries⟩ := hfits _ _ _ ⟨[_], [], rfl, rfl, by decide, .done 0, by decide, by decide⟩
    (by decide)
  obtain ⟨hentry, -⟩ :=
    hentries _ _ _ ⟨[_, _], [], rfl, rfl, by decide, .done 0, by decide, by decide⟩
    (by decide)
  exact absurd hentry (by decide)

end JavaLoader

end Barry
