import Barry.Pump

/-!
# Desktop operations

The operations of `Desktop` (`m_desktop.cc`) share one socket : an answer that an operation
leaves half read is what the next one reads. Each has its own place for the checks, the call
of the parser or the builder, and the loop that reads the rest of the answer, and
`Completes` says when an operation gets to the end of its answers, however it ends.
-/

namespace Barry

open Data Protocol

/-! ## Parsers -/

/-- `Parser`, with the state it goes through, of records up to where their bytes lie. -/
structure Parser (π : Type) where
  parseRecord : π → Record → Except Error π

namespace Desktop

variable (d : Desktop)

/-- `GetDBName`, of a name that was empty before. -/
def getDBName (dbId : ℕ) : Bytes :=
  ((d.dbdb.find? (·.1 = dbId)).map Prod.snd).getD []

/-! ## Parts of the operations -/

/-- The loop that reads up to the end of the answer. -/
def flush : ℕ → Data → EStateM Error Link Unit
  | 0, _ => throw (.fault "Desktop: the flush loop does not end")
  | fuel + 1, response => do
    let command ← Link.lift (DBPacket.commandOf response)
    if command = dbDone then return
    else
      let response ← Link.nextRecord response
      flush fuel response

/-- The loop, with a turn for each packet that is left. -/
def flushAll (response : Data) : EStateM Error Link Unit := do
  let link ← get
  flush (link.pending.length + 1) response

/-- `DBPacket::ReturnCode`. -/
def returnCode (response : Data) : Except Error UInt8 :=
  (DBPacket.commandOf response).bind fun command =>
    if command = dbDone then
      (checkSize response (fragHeaderSize + 1)).map fun _ => response.getData.getD 6 0
    else .error (.error
      "Attempting to extract a return code from the wrong response packet type")

/-- The upload of a record that was built behind a header : the rest of `DBPacket::AddRecord`
and `DBPacket::SetRecordByIndex`. -/
def upload (send : Data) (operation : UInt8) (dbId : ℕ) (params : Bytes) : Except Error Data :=
  let size := send.getSize
  ((send.getBuffer size).write 2 (leBytes 2 size ++ [dbData, d.tableCmd, operation] ++
    leBytes 2 dbId ++ params)).releaseBuffer (toInt size)

/-- `DBPacket::AddRecord` : nothing if the builder has no more data. -/
def addRecordPacket {σ : Type} (dbId : ℕ) (build : Builder σ) (s : σ) (send : Data) :
    Except Error (Option (Data × σ)) :=
  (build.buildRecord s { DBData.default with data := send } (9 + 6)).bind fun (ret, s, built, _) =>
    if ret then
      (d.upload built.data 0x41 dbId
        ([built.recType] ++ leBytes 4 built.uniqueId.toNat ++ [1])).map fun send => some (send, s)
    else .ok none

/-- `DBPacket::SetRecordByIndex`. -/
def setRecordPacket {σ : Type} (dbId index : ℕ) (build : Builder σ) (s : σ) (send : Data) :
    Except Error (Option (Data × σ)) :=
  (build.buildRecord s { DBData.default with data := send } (9 + 3)).bind fun (ret, s, built, _) =>
    if ret then
      (d.upload built.data 0x55 dbId ([0] ++ leBytes 2 index)).map fun send => some (send, s)
    else .ok none

/-- An upload, and the checks of its response, as `AddRecord`, `SetRecord` and `SaveDatabase`
have them. -/
def sendRecord (send response : Data) : EStateM Error Link Data := do
  let response ← Link.packet d.answer send response
  let command ← Link.lift (DBPacket.commandOf response)
  if command ≠ dbDone then
    throw (.error ("Desktop: device responded with unexpected packet command code: 0x" ++
      hexText command.toNat))
  else
    let code ← Link.lift (returnCode response)
    if code ≠ 0 then
      throw (.error ("Desktop: device responded with error code (command: " ++
        toString command.toNat ++ ", code: " ++ toString code.toNat ++ ")"))
    else return response

/-! ## The operations -/

/-- A command whose answer is read to its end : `GetRecordStateTable`, `ClearDirty` and
`DeleteRecord`. The response that is parsed first is returned, and the parser of the state
table throws nothing. -/
def readAnswer (operation : UInt8) (dbId : ℕ) (params : Bytes) (command response : Data) :
    EStateM Error Link Data := do
  let send ← Link.lift (DBPacket.command command d.tableCmd operation dbId params)
  let response ← Link.packet d.answer send response
  flushAll response
  return response

/-- `GetRecordStateTable`. -/
def getRecordStateTable (dbId : ℕ) (command response : Data) : EStateM Error Link Data :=
  d.readAnswer 0x53 dbId [] command response

/-- `ClearDirty`. -/
def clearDirty (dbId stateTableIndex : ℕ) (command response : Data) : EStateM Error Link Data :=
  d.readAnswer 0x54 dbId ([0] ++ leBytes 2 stateTableIndex ++ [0, 0, 0, 0, 0]) command response

/-- `DeleteRecord`. -/
def deleteRecord (dbId stateTableIndex : ℕ) (command response : Data) : EStateM Error Link Data :=
  d.readAnswer 0x52 dbId (leBytes 2 stateTableIndex) command response

/-- `AddRecord`. -/
def addRecord {σ : Type} (dbId : ℕ) (build : Builder σ) (s : σ) (command response : Data) :
    EStateM Error Link Unit := do
  match ← Link.lift (d.addRecordPacket dbId build s command) with
  | some (send, _) => let _ ← d.sendRecord send response
  | none => return

/-- `SetRecord`. -/
def setRecord {σ : Type} (dbId stateTableIndex : ℕ) (build : Builder σ) (s : σ)
    (command response : Data) : EStateM Error Link Unit := do
  match ← Link.lift (d.setRecordPacket dbId stateTableIndex build s command) with
  | some (send, _) => let _ ← d.sendRecord send response
  | none => throw (.logicError "Desktop: no data available in SetRecord")

/-- `GetRecord`. -/
def getRecord {π : Type} (dbId stateTableIndex : ℕ) (parser : Parser π) (p : π)
    (command response : Data) : EStateM Error Link Unit := do
  let send ← Link.lift
    (DBPacket.command command d.tableCmd 0x46 dbId (leBytes 2 stateTableIndex))
  let response ← Link.packet d.answer send response
  if response.getSize < fragHeaderSize + 1 then
    throw (.error ("Desktop: invalid response packet size of: " ++ toString response.getSize))
  else
    let command ← Link.lift (DBPacket.commandOf response)
    if command ≠ dbData then
      throw (.error ("Desktop: unexpected command of 0x" ++ hexText command.toNat ++
        " instead of expected 0x" ++ hexText dbData.toNat))
    else
      Link.lift (checkSize response DBPacket.taggedRecordOffset)
      let _ ← Link.lift
        (parser.parseRecord p (DBPacket.recordOf (d.getDBName dbId) response.getData))
      flushAll response

/-- The loop of `LoadDatabase`. -/
def loadLoop {π : Type} (parser : Parser π) :
    ℕ → π → DBLoader → DBData → Bool → EStateM Error Link Unit
  | _, _, _, _, false => return
  | 0, _, _, _, true => throw (.fault "Desktop::LoadDatabase does not end")
  | fuel + 1, p, l, data, true => do
    let p ← Link.lift (parser.parseRecord p data.record)
    let (loading, l, data) ← l.getNextRecord data
    loadLoop parser fuel p l data loading

/-- `LoadDatabase`, with a loader of its own. -/
def loadDatabase {π : Type} (dbId : ℕ) (parser : Parser π) (p : π) : EStateM Error Link Unit := do
  let (loading, l, data) ← DBLoader.new.startDBLoad d dbId DBData.default
  let link ← get
  loadLoop parser (link.pending.length + 1) p l data loading

/-- `ClearDatabase`, where the return code is checked before the command. -/
def clearDatabase (dbId : ℕ) (command response : Data) : EStateM Error Link (Data × Data) := do
  let send ← Link.lift (DBPacket.command command d.tableCmd 0x43 dbId [])
  let response ← Link.packet d.answer send response
  let code ← Link.lift (returnCode response)
  let last ← Link.lift (DBPacket.commandOf response)
  if code ≠ 0 then
    throw (.error ("Desktop: could not clear database: (command: 0x" ++ hexText last.toNat ++
      ", code: 0x" ++ hexText code.toNat ++ ")"))
  else if last ≠ dbDone then throw (.error "Desktop: error clearing database, bad response")
  else return (send, response)

/-- The loop of `SaveDatabase`, as long as the builder is asked for records. -/
def saveLoop {σ : Type} (dbId : ℕ) (build : Builder σ) :
    ℕ → σ → Data → Data → EStateM Error Link Unit
  | 0, _, _, _ => throw (.fault "Desktop::SaveDatabase is not through")
  | fuel + 1, s, command, response => do
    match ← Link.lift (d.addRecordPacket dbId build s command) with
    | some (send, s) =>
      let response ← d.sendRecord send response
      saveLoop dbId build fuel s send response
    | none => return

/-- `SaveDatabase`, for as many records as there is fuel. -/
def saveDatabase {σ : Type} (dbId : ℕ) (build : Builder σ) (s : σ) (fuel : ℕ)
    (command response : Data) : EStateM Error Link Unit := do
  let (send, response) ← d.clearDatabase dbId command response
  d.saveLoop dbId build fuel s send response

/-! ## Answers -/

/-- Any data packets, and one `dbDone` behind them. -/
inductive Whole : List Response → Prop
  | done (r : Response) : r.command = dbDone → Whole [r]
  | data (r : Response) (rs : List Response) : r.command = dbData → Whole rs → Whole (r :: rs)

/-- The device answers every command like that. -/
def WellBehaved : Prop :=
  ∀ (commands : List Bytes) (command : Bytes), Whole (d.answer (commands ++ [command]))

theorem length_le_leftOf (n : ℕ) (rs : List Response) : rs.length ≤ (leftOf n rs).length := by
  induction rs with
  | nil => exact Nat.zero_le _
  | cons r rs ih =>
    have hpos := List.length_pos_of_ne_nil r.pieces_ne_nil
    rw [leftOf, List.flatMap_cons, List.length_append, Response.tagged, List.length_map,
      List.length_cons]
    unfold leftOf at ih
    omega

theorem leftOf_eq_nil {n : ℕ} {rs : List Response} : leftOf n rs = [] ↔ rs = [] := by
  refine ⟨fun h => ?_, fun h => by rw [h]; rfl⟩
  have hlen := length_le_leftOf n rs
  rw [h] at hlen
  exact List.eq_nil_of_length_eq_zero (Nat.le_zero.mp hlen)

variable {d}

theorem Whole.ne_nil {rs : List Response} (h : Whole rs) : rs ≠ [] := by
  cases h <;> exact List.cons_ne_nil _ _

/-- A command is sent, and the answer to it is whole. -/
theorem packet_whole (hd : d.WellBehaved) {send : Data} (hsend : ¬Link.Refuses send)
    (receive : Data) (commands : List Bytes) : ∃ out r rs,
      d.answer (commands ++ [send.getData]) = r :: rs ∧ Whole (r :: rs) ∧
      Link.packet d.answer send receive ⟨commands, []⟩ =
        .ok out ⟨commands ++ [send.getData], leftOf commands.length rs⟩ ∧
      out.getData = r.packet ∧ DBPacket.commandOf out = .ok r.command := by
  have hwhole := hd commands send.getData
  rcases hanswer : d.answer (commands ++ [send.getData]) with _ | ⟨r, rs⟩
  · exact absurd hanswer hwhole.ne_nil
  · obtain ⟨out, hout, hdata⟩ := Link.packet_ok receive hsend hanswer
    exact ⟨out, r, rs, rfl, hanswer ▸ hwhole, hout, hdata, commandOf_packet hdata⟩

/-- Up to the end of the answer, which is behind some data packets. -/
theorem flush_whole (n : ℕ) (commands : List Bytes) {rs : List Response} :
    ∀ {r : Response} {fuel : ℕ} {response : Data}, Whole (r :: rs) →
      response.getData = r.packet → rs.length < fuel →
      flush fuel response ⟨commands, leftOf n rs⟩ = .ok () ⟨commands, []⟩ := by
  induction rs with
  | nil =>
    intro r fuel response hwhole hdata hfuel
    obtain ⟨fuel, rfl⟩ : ∃ m, fuel = m + 1 := ⟨fuel - 1, by omega⟩
    cases hwhole with
    | done _ hr =>
      rw [flush, commandOf_packet hdata, bind_ok (Link.lift_ok _), if_pos hr]
      rfl
    | data _ _ hr hrest => exact absurd rfl hrest.ne_nil
  | cons r' rs ih =>
    intro r fuel response hwhole hdata hfuel
    obtain ⟨fuel, rfl⟩ : ∃ m, fuel = m + 1 := ⟨fuel - 1, by omega⟩
    cases hwhole with
    | data _ _ hr hrest =>
      obtain ⟨out, hout, hdata'⟩ := Link.nextRecord_ok response commands r' n (leftOf n rs)
      have hnext : leftOf n (r' :: rs) = r'.tagged n ++ leftOf n rs := rfl
      rw [flush, commandOf_packet hdata, bind_ok (Link.lift_ok _), hr, if_neg (by decide), hnext,
        bind_ok hout]
      exact ih hrest hdata' (by simpa using hfuel)

theorem flushAll_whole (n : ℕ) (commands : List Bytes) {r : Response} {rs : List Response}
    {response : Data} (hwhole : Whole (r :: rs)) (hdata : response.getData = r.packet) :
    flushAll response ⟨commands, leftOf n rs⟩ = .ok () ⟨commands, []⟩ :=
  flush_whole n commands hwhole hdata (Nat.lt_succ_of_le (length_le_leftOf n rs))

/-! ## What is left behind an operation -/

/-- The answers of an operation are read to the end, however it ends. -/
def Finishes {α : Type} (x : EStateM Error Link α) (commands : List Bytes) : Prop :=
  (finalState x ⟨commands, []⟩).pending = []

/-- An answer that is read to its end. -/
theorem readAnswer_whole (hd : d.WellBehaved) (operation : UInt8) (dbId : ℕ) (params : Bytes)
    (command response : Data) (commands : List Bytes) : ∃ send out,
      d.readAnswer operation dbId params command response ⟨commands, []⟩ =
        .ok out ⟨commands ++ [send], []⟩ := by
  obtain ⟨send, hsend, hsize, hbytes⟩ :=
    DBPacket.command_ok command d.tableCmd operation dbId params
  obtain ⟨out, r, rs, -, hwhole, hout, hdata, -⟩ :=
    packet_whole hd (DBPacket.not_refuses hsize hbytes) response commands
  have hflush := flushAll_whole commands.length (commands ++ [send.getData]) hwhole hdata
  refine ⟨send.getData, out, ?_⟩
  rw [readAnswer, hsend, bind_ok (Link.lift_ok _), bind_ok hout, bind_ok hflush]
  rfl

/-- A response that reports success. -/
def Succeeds (r : Response) : Prop :=
  r.payload.head? = some 0

theorem returnCode_done {r : Response} {response : Data} (hdone : r.command = dbDone)
    (h : response.getData = r.packet) :
    (Succeeds r ∧ returnCode response = .ok 0) ∨
      ¬Succeeds r ∧ ∀ code, returnCode response = .ok code → code ≠ 0 := by
  have hcommand := commandOf_packet h
  rw [hdone] at hcommand
  have hcode : returnCode response = (checkSize response (fragHeaderSize + 1)).map
      fun _ => response.getData.getD 6 0 := by
    rw [returnCode, hcommand]
    rfl
  rw [hcode, Succeeds]
  rcases hpayload : r.payload with _ | ⟨c, payload⟩
  · right
    refine ⟨by simp, fun code hok => ?_⟩
    rcases hcheck : checkSize response (fragHeaderSize + 1) with e | ⟨⟩
    · rw [hcheck] at hok
      cases hok
    · have hsize := le_getSize_of_checkSize hcheck
      rw [getSize, ← length_getData, h, Response.packet, Socket.length_frame, hpayload,
        List.length_nil] at hsize
      omega
  · have hcheck : checkSize response (fragHeaderSize + 1) = .ok () := by
      refine checkSize_of_sizeField ?_ ?_
      · rw [h, Response.packet, Socket.length_frame, hpayload, List.length_cons]
        omega
      · rw [h, Response.packet, Socket.sizeField_frame, Socket.length_frame]
    have hfirst : response.getData.getD 6 0 = c := by
      rw [h, Response.packet, hpayload]
      rfl
    rw [hcheck, hfirst]
    by_cases hc : c = 0
    · exact .inl ⟨by simp [hc], by rw [hc]; rfl⟩
    · refine .inr ⟨by simpa using hc, fun code hok => ?_⟩
      cases hok
      exact hc

/-- What an upload may come to. -/
theorem sendRecord_whole (hd : d.WellBehaved) {send : Data} (hsend : ¬Link.Refuses send)
    (response : Data) (commands : List Bytes) :
    (∃ r rs e, d.answer (commands ++ [send.getData]) = r :: rs ∧ rs ≠ [] ∧
      d.sendRecord send response ⟨commands, []⟩ =
        .error e ⟨commands ++ [send.getData], leftOf commands.length rs⟩) ∨
    ∃ r, d.answer (commands ++ [send.getData]) = [r] ∧
      ((Succeeds r ∧ ∃ out, d.sendRecord send response ⟨commands, []⟩ =
        .ok out ⟨commands ++ [send.getData], []⟩) ∨
      ¬Succeeds r ∧ ∃ e, d.sendRecord send response ⟨commands, []⟩ =
        .error e ⟨commands ++ [send.getData], []⟩) := by
  obtain ⟨out, r, rs, hanswer, hwhole, hout, hdata, hcommand⟩ :=
    packet_whole hd hsend response commands
  generalize hrun : d.sendRecord send response ⟨commands, []⟩ = result
  rw [sendRecord, bind_ok hout, hcommand, bind_ok (Link.lift_ok _)] at hrun
  cases hwhole with
  | data _ _ hr hrest =>
    left
    rw [hr, if_pos (by decide)] at hrun
    exact ⟨r, rs, _, hanswer, hrest.ne_nil, hrun.symm⟩
  | done _ hr =>
    right
    refine ⟨r, hanswer, ?_⟩
    rw [hr, if_neg (by simp)] at hrun
    rcases returnCode_done hr hdata with ⟨hok, hcode⟩ | ⟨hfail, hcode⟩
    · left
      rw [hcode, bind_ok (Link.lift_ok _), if_neg (by simp)] at hrun
      exact ⟨hok, out, hrun.symm⟩
    · right
      refine ⟨hfail, ?_⟩
      rcases hres : returnCode out with e | code
      · rw [hres, bind_error (Link.lift_error e)] at hrun
        exact ⟨e, hrun.symm⟩
      · rw [hres, bind_ok (Link.lift_ok _), if_pos (hcode code hres)] at hrun
        exact ⟨_, hrun.symm⟩

section Bind

variable {α β : Type} {x : EStateM Error Link α} {f : α → EStateM Error Link β}
  {commands commands' : List Bytes}

theorem finishes_bind_ok {a : α} (h : x ⟨commands, []⟩ = .ok a ⟨commands', []⟩) :
    Finishes (x >>= f) commands ↔ Finishes (f a) commands' := by
  rw [Finishes, Finishes, finalState, finalState, bind_ok h]

theorem finishes_bind_error {e : Error} {link' : Link} (h : x ⟨commands, []⟩ = .error e link') :
    Finishes (x >>= f) commands ↔ link'.pending = [] := by
  rw [Finishes, finalState, bind_error h]

theorem finishes_lift {y : Except Error α} :
    Finishes (Link.lift y >>= f) commands ↔ ∀ a, y = .ok a → Finishes (f a) commands := by
  rcases y with e | a
  · rw [finishes_bind_error (Link.lift_error e)]
    exact iff_of_true rfl fun a h => nomatch h
  · rw [finishes_bind_ok (Link.lift_ok a)]
    exact ⟨fun h b hb => Except.ok.inj hb ▸ h, fun h => h a rfl⟩

end Bind

theorem finishes_throw {α : Type} (e : Error) (commands : List Bytes) :
    Finishes (throw e : EStateM Error Link α) commands := rfl

theorem finishes_pure {α : Type} (a : α) (commands : List Bytes) :
    Finishes (pure a : EStateM Error Link α) commands := rfl

/-- An upload is not sent, or `dbDone` is all there is of its answer, and then a success may be
gone on from. -/
theorem finishes_sendRecord {β : Type} (hd : d.WellBehaved) (send response : Data)
    (commands : List Bytes) (f : Data → EStateM Error Link β) (P : List Bytes → Prop)
    (hf : ∀ out commands', Finishes (f out) commands' ↔ P commands') :
    Finishes (d.sendRecord send response >>= f) commands ↔ Link.Refuses send ∨
      ∃ r, d.answer (commands ++ [send.getData]) = [r] ∧
        (Succeeds r → P (commands ++ [send.getData])) := by
  by_cases hsend : Link.Refuses send
  · have hrefused : d.sendRecord send response ⟨commands, []⟩ =
        .error (.logicError "Socket: unknown send data in DBFragSend()") ⟨commands, []⟩ := by
      have hpacket : Link.packet d.answer send response ⟨commands, []⟩ =
          .error (.logicError "Socket: unknown send data in DBFragSend()") ⟨commands, []⟩ := by
        rw [Link.packet, if_pos hsend]
        rfl
      rw [sendRecord, bind_error hpacket]
    rw [finishes_bind_error hrefused]
    exact iff_of_true rfl (.inl hsend)
  rw [or_iff_right hsend]
  rcases sendRecord_whole hd hsend response commands with
    ⟨r, rs, e, hanswer, hne, hrun⟩ | ⟨r, hanswer, ⟨hok, out, hrun⟩ | ⟨hfail, e, hrun⟩⟩
  · rw [finishes_bind_error hrun]
    refine iff_of_false (mt leftOf_eq_nil.mp hne) ?_
    rintro ⟨r', hr', -⟩
    rw [hanswer] at hr'
    exact hne (List.cons.inj hr').2
  · rw [finishes_bind_ok hrun, hf]
    refine ⟨fun h => ⟨r, hanswer, fun _ => h⟩, ?_⟩
    rintro ⟨r', hr', h⟩
    rw [hanswer] at hr'
    exact h ((List.cons.inj hr').1 ▸ hok)
  · rw [finishes_bind_error hrun]
    exact iff_of_true rfl ⟨r, hanswer, fun hok => absurd hok hfail⟩

/-- The answer to an upload is `dbDone` alone, if the upload is sent. -/
def AnswersAlone (d : Desktop) (commands : List Bytes) (send : Data) : Prop :=
  Link.Refuses send ∨ ∃ r, d.answer (commands ++ [send.getData]) = [r]

/-- One upload of a builder's record, or what is done without one. -/
theorem finishes_upload {σ : Type} (hd : d.WellBehaved) (y : Except Error (Option (Data × σ)))
    (response : Data) (commands : List Bytes) {none' : EStateM Error Link Unit}
    (hnone : Finishes none' commands) :
    (Finishes (do
      match ← Link.lift y with
      | some (send, _) => let _ ← d.sendRecord send response
      | none => none') commands) ↔
      ∀ send s', y = .ok (some (send, s')) → d.AnswersAlone commands send := by
  have hupload (send : Data) : Finishes (d.sendRecord send response >>= fun _ => pure ()) commands ↔
      d.AnswersAlone commands send := by
    rw [finishes_sendRecord hd send response commands _ (fun _ => True)
      fun out commands' => iff_of_true (finishes_pure _ commands') trivial]
    exact or_congr_right (exists_congr fun r => and_iff_left fun _ => trivial)
  rw [finishes_lift]
  constructor
  · exact fun h send s' hsend => (hupload send).mp (h _ hsend)
  · rintro h (_ | ⟨send, s'⟩) hsend
    · exact hnone
    · exact (hupload send).mpr (h send s' hsend)

theorem finishes_addRecord {σ : Type} (hd : d.WellBehaved) (dbId : ℕ) (build : Builder σ) (s : σ)
    (command response : Data) (commands : List Bytes) :
    Finishes (d.addRecord dbId build s command response) commands ↔
      ∀ send s', d.addRecordPacket dbId build s command = .ok (some (send, s')) →
        d.AnswersAlone commands send :=
  finishes_upload hd _ response commands (finishes_pure _ _)

theorem finishes_setRecord {σ : Type} (hd : d.WellBehaved) (dbId stateTableIndex : ℕ)
    (build : Builder σ) (s : σ) (command response : Data) (commands : List Bytes) :
    Finishes (d.setRecord dbId stateTableIndex build s command response) commands ↔
      ∀ send s', d.setRecordPacket dbId stateTableIndex build s command = .ok (some (send, s')) →
        d.AnswersAlone commands send :=
  finishes_upload hd _ response commands (finishes_throw _ _)

/-- A database may be cleared, and records are sent up to one that is refused or not alone in
its answer. -/
def SaveAnswersAlone {σ : Type} (d : Desktop) (dbId : ℕ) (build : Builder σ) :
    ℕ → σ → Data → List Bytes → Prop
  | 0, _, _, _ => True
  | fuel + 1, s, command, commands => ∀ send s',
      d.addRecordPacket dbId build s command = .ok (some (send, s')) →
        Link.Refuses send ∨ ∃ r, d.answer (commands ++ [send.getData]) = [r] ∧
          (Succeeds r → SaveAnswersAlone d dbId build fuel s' send (commands ++ [send.getData]))

theorem finishes_saveLoop {σ : Type} (hd : d.WellBehaved) (dbId : ℕ) (build : Builder σ)
    (fuel : ℕ) : ∀ (s : σ) (command response : Data) (commands : List Bytes),
      Finishes (d.saveLoop dbId build fuel s command response) commands ↔
        SaveAnswersAlone d dbId build fuel s command commands := by
  induction fuel with
  | zero => exact fun _ _ _ commands => iff_of_true (finishes_throw _ commands) trivial
  | succ fuel ih =>
    intro s command response commands
    have hupload (send : Data) (s' : σ) := finishes_sendRecord hd send response commands
      (fun response => d.saveLoop dbId build fuel s' send response)
      (SaveAnswersAlone d dbId build fuel s' send) fun out commands' => ih s' send out commands'
    rw [saveLoop, finishes_lift]
    constructor
    · exact fun h send s' hsend => (hupload send s').mp (h _ hsend)
    · rintro h (_ | ⟨send, s'⟩) hsend
      · exact finishes_pure _ _
      · exact (hupload send s').mpr (h send s' hsend)

/-- What may come of clearing a database. -/
theorem clearDatabase_whole (hd : d.WellBehaved) (dbId : ℕ) (command response : Data)
    (commands : List Bytes) :
    ∃ send, DBPacket.command command d.tableCmd 0x43 dbId [] = .ok send ∧
      ((∃ r rs e, d.answer (commands ++ [send.getData]) = r :: rs ∧ rs ≠ [] ∧
        d.clearDatabase dbId command response ⟨commands, []⟩ =
          .error e ⟨commands ++ [send.getData], leftOf commands.length rs⟩) ∨
      ∃ r, d.answer (commands ++ [send.getData]) = [r] ∧
        ((Succeeds r ∧ ∃ out, d.clearDatabase dbId command response ⟨commands, []⟩ =
          .ok (send, out) ⟨commands ++ [send.getData], []⟩) ∨
        ¬Succeeds r ∧ ∃ e, d.clearDatabase dbId command response ⟨commands, []⟩ =
          .error e ⟨commands ++ [send.getData], []⟩)) := by
  obtain ⟨send, hsend, hsize, hbytes⟩ := DBPacket.command_ok command d.tableCmd 0x43 dbId []
  obtain ⟨out, r, rs, hanswer, hwhole, hout, hdata, hcommand⟩ :=
    packet_whole hd (DBPacket.not_refuses hsize hbytes) response commands
  refine ⟨send, hsend, ?_⟩
  generalize hrun : d.clearDatabase dbId command response ⟨commands, []⟩ = result
  rw [clearDatabase, hsend, bind_ok (Link.lift_ok _), bind_ok hout] at hrun
  cases hwhole with
  | data _ _ hr hrest =>
    left
    have hcode : returnCode out = .error (.error
        "Attempting to extract a return code from the wrong response packet type") := by
      rw [returnCode, hcommand, hr]
      rfl
    rw [hcode, bind_error (Link.lift_error _)] at hrun
    exact ⟨r, rs, _, hanswer, hrest.ne_nil, hrun.symm⟩
  | done _ hr =>
    right
    refine ⟨r, hanswer, ?_⟩
    rcases returnCode_done hr hdata with ⟨hok, hcode⟩ | ⟨hfail, hcode⟩
    · left
      rw [hcode, bind_ok (Link.lift_ok _), hcommand, bind_ok (Link.lift_ok _), hr,
        if_neg (by simp), if_neg (by simp)] at hrun
      exact ⟨hok, out, hrun.symm⟩
    · right
      refine ⟨hfail, ?_⟩
      rcases hres : returnCode out with e | code
      · rw [hres, bind_error (Link.lift_error e)] at hrun
        exact ⟨e, hrun.symm⟩
      · rw [hres, bind_ok (Link.lift_ok _), hcommand, bind_ok (Link.lift_ok _),
          if_pos (hcode code hres)] at hrun
        exact ⟨_, hrun.symm⟩

theorem finishes_saveDatabase {σ : Type} (hd : d.WellBehaved) (dbId : ℕ) (build : Builder σ)
    (s : σ) (fuel : ℕ) (command response : Data) (commands : List Bytes) :
    Finishes (d.saveDatabase dbId build s fuel command response) commands ↔
      ∀ send, DBPacket.command command d.tableCmd 0x43 dbId [] = .ok send →
        ∃ r, d.answer (commands ++ [send.getData]) = [r] ∧
          (Succeeds r →
            SaveAnswersAlone d dbId build fuel s send (commands ++ [send.getData])) := by
  obtain ⟨send, hsend, hclear⟩ := clearDatabase_whole hd dbId command response commands
  have hsame {P : Data → Prop} : (∀ send', DBPacket.command command d.tableCmd 0x43 dbId [] =
      .ok send' → P send') ↔ P send :=
    ⟨fun h => h send hsend, fun h send' h' => Except.ok.inj (hsend.symm.trans h') ▸ h⟩
  rw [hsame, saveDatabase]
  rcases hclear with
    ⟨r, rs, e, hanswer, hne, hrun⟩ | ⟨r, hanswer, ⟨hok, out, hrun⟩ | ⟨hfail, e, hrun⟩⟩
  · rw [finishes_bind_error hrun]
    refine iff_of_false (mt leftOf_eq_nil.mp hne) ?_
    rintro ⟨r', hr', -⟩
    rw [hanswer] at hr'
    exact hne (List.cons.inj hr').2
  · rw [finishes_bind_ok hrun]
    refine (finishes_saveLoop hd dbId build fuel s send out _).trans
      ⟨fun h => ⟨r, hanswer, fun _ => h⟩, ?_⟩
    rintro ⟨r', hr', h⟩
    rw [hanswer] at hr'
    exact h ((List.cons.inj hr').1 ▸ hok)
  · rw [finishes_bind_error hrun]
    exact iff_of_true rfl ⟨r, hanswer, fun hok => absurd hok hfail⟩

/-- The parser takes the record that is in a response. -/
def Takes {π : Type} (parser : Parser π) (dbName : Bytes) (p : π) (r : Response) (p' : π) : Prop :=
  DBPacket.taggedRecordOffset ≤ r.packet.length ∧
    parser.parseRecord p (DBPacket.recordOf dbName r.packet) = .ok p'

theorem finishes_getRecord {π : Type} (hd : d.WellBehaved) (dbId stateTableIndex : ℕ)
    (parser : Parser π) (p : π) (command response : Data) (commands : List Bytes) :
    Finishes (d.getRecord dbId stateTableIndex parser p command response) commands ↔
      ∀ send, DBPacket.command command d.tableCmd 0x46 dbId (leBytes 2 stateTableIndex) = .ok send →
        ∀ r rs, d.answer (commands ++ [send.getData]) = r :: rs →
          r.command = dbDone ∨ ∃ p', Takes parser (d.getDBName dbId) p r p' := by
  obtain ⟨send, hsend, hsize, hbytes⟩ :=
    DBPacket.command_ok command d.tableCmd 0x46 dbId (leBytes 2 stateTableIndex)
  obtain ⟨out, r, rs, hanswer, hwhole, hout, hdata, hcommand⟩ :=
    packet_whole hd (DBPacket.not_refuses hsize hbytes) response commands
  have hsame : (∀ send', DBPacket.command command d.tableCmd 0x46 dbId (leBytes 2 stateTableIndex) =
      .ok send' → ∀ r rs, d.answer (commands ++ [send'.getData]) = r :: rs →
        r.command = dbDone ∨ ∃ p', Takes parser (d.getDBName dbId) p r p') ↔
      (r.command = dbDone ∨ ∃ p', Takes parser (d.getDBName dbId) p r p') := by
    refine ⟨fun h => h send hsend r rs hanswer, fun h send' h' r' rs' hr' => ?_⟩
    obtain rfl := Except.ok.inj (hsend.symm.trans h')
    rw [hanswer] at hr'
    exact (List.cons.inj hr').1 ▸ h
  have hlen : out.getSize = r.packet.length := by rw [getSize, ← length_getData, hdata]
  rw [hsame, Finishes, finalState]
  generalize hrun : d.getRecord dbId stateTableIndex parser p command response ⟨commands, []⟩ =
    result
  rw [getRecord, hsend, bind_ok (Link.lift_ok _), bind_ok hout] at hrun
  cases hwhole with
  | done _ hr =>
    -- the answer was read to its end, so that nothing is left behind the checks
    refine iff_of_true ?_ (.inl hr)
    by_cases hshort : out.getSize < fragHeaderSize + 1
    · rw [if_pos hshort] at hrun
      rw [← hrun]
      rfl
    · rw [if_neg hshort, hcommand, bind_ok (Link.lift_ok _), hr, if_pos (by decide)] at hrun
      rw [← hrun]
      rfl
  | data _ _ hr hrest =>
    have hleft : leftOf commands.length rs ≠ [] := mt leftOf_eq_nil.mp hrest.ne_nil
    have hdone : r.command ≠ dbDone := by rw [hr]; decide
    rw [or_iff_right hdone]
    by_cases hshort : out.getSize < fragHeaderSize + 1
    · rw [if_pos hshort] at hrun
      rw [← hrun]
      refine iff_of_false hleft ?_
      rintro ⟨p', hoffset, -⟩
      simp only [DBPacket.taggedRecordOffset, fragHeaderSize] at *
      omega
    rw [if_neg hshort, hcommand, bind_ok (Link.lift_ok _), hr, if_neg (by simp)] at hrun
    rcases checkSize_packet hdata DBPacket.taggedRecordOffset with ⟨hle, hcheck⟩ | ⟨hlt, e, hcheck⟩
    · rw [hcheck, bind_ok (Link.lift_ok _), hdata] at hrun
      rcases hparse : parser.parseRecord p
        (DBPacket.recordOf (d.getDBName dbId) r.packet) with e | p'
      · rw [hparse, bind_error (Link.lift_error e)] at hrun
        rw [← hrun]
        refine iff_of_false hleft ?_
        rintro ⟨p', -, hp'⟩
        rw [hparse] at hp'
        cases hp'
      · have hflush := flushAll_whole commands.length (commands ++ [send.getData])
          (Whole.data r rs hr hrest) hdata
        rw [hparse, bind_ok (Link.lift_ok _), hflush] at hrun
        rw [← hrun]
        exact iff_of_true rfl ⟨p', hle, hparse⟩
    · rw [hcheck, bind_error (Link.lift_error e)] at hrun
      rw [← hrun]
      refine iff_of_false hleft ?_
      rintro ⟨p', hoffset, -⟩
      omega

/-- The parser takes the records of an answer, up to its end. -/
def TakesAll {π : Type} (parser : Parser π) (dbName : Bytes) : π → List Response → Prop
  | _, [] => True
  | p, r :: rs => r.command = dbDone ∨ ∃ p',
    Takes parser dbName p r p' ∧ TakesAll parser dbName p' rs

/-- The rest of an answer is handed out and parsed. -/
theorem finishes_loadLoop {π : Type} (parser : Parser π) (dbName : Bytes) (n : ℕ)
    (commands : List Bytes) {rs : List Response} :
    ∀ {fuel : ℕ} {p : π} {l : DBLoader} {data : DBData}, Whole rs → rs.length ≤ fuel →
      l.loading = true → data.dbName = dbName →
      ((finalState (loadLoop parser fuel p l data true) ⟨commands, leftOf n rs⟩).pending = [] ↔
        ∃ p', parser.parseRecord p data.record = .ok p' ∧ TakesAll parser dbName p' rs) := by
  induction rs with
  | nil => exact fun h => absurd rfl h.ne_nil
  | cons r rs ih =>
    intro fuel p l data hwhole hfuel hloading hname
    obtain ⟨fuel, rfl⟩ : ∃ m, fuel = m + 1 := ⟨fuel - 1, by simp at hfuel; omega⟩
    have hleft : leftOf n (r :: rs) ≠ [] := mt leftOf_eq_nil.mp (List.cons_ne_nil r rs)
    rw [finalState]
    generalize hrun : loadLoop parser (fuel + 1) p l data true _ = result
    rw [loadLoop] at hrun
    rcases hparse : parser.parseRecord p data.record with e | p'
    · rw [hparse, bind_error (Link.lift_error e)] at hrun
      rw [← hrun]
      refine iff_of_false hleft ?_
      rintro ⟨p', h, -⟩
      cases h
    rw [hparse, bind_ok (Link.lift_ok _)] at hrun
    have hnext : leftOf n (r :: rs) = r.tagged n ++ leftOf n rs := rfl
    rw [hnext] at hrun
    cases hwhole with
    | done _ hr =>
      obtain ⟨data', hget⟩ := DBLoader.getNextRecord_done hloading hr data commands (leftOf n [])
      rw [bind_ok hget] at hrun
      cases fuel <;> rw [← hrun] <;> exact iff_of_true rfl ⟨p', rfl, .inl hr⟩
    | data _ _ hr hrest =>
      have hdone : r.command ≠ dbDone := by rw [hr]; decide
      rcases DBLoader.getNextRecord_data hloading hr data commands (leftOf n rs) with
        ⟨hle, data', hget, hname', hrecord⟩ | ⟨hlt, e, hget⟩
      · rw [bind_ok hget] at hrun
        have hloop := ih (p := p') hrest (by simpa using hfuel) hloading (hname'.trans hname)
        rw [finalState] at hloop
        rw [← hrun]
        refine hloop.trans ?_
        have hsame : data'.record = DBPacket.recordOf dbName r.packet := by
          rw [← hrecord dbName, ← hname, ← hname']
        rw [hsame]
        constructor
        · rintro ⟨q, hq, hall⟩
          exact ⟨p', rfl, .inr ⟨q, ⟨hle, hq⟩, hall⟩⟩
        · rintro ⟨q, hq, hall⟩
          obtain rfl := Except.ok.inj hq
          obtain ⟨q', ⟨-, hq'⟩, hall'⟩ := hall.resolve_left hdone
          exact ⟨q', hq', hall'⟩
      · rw [bind_error hget] at hrun
        rw [← hrun]
        refine iff_of_false (mt leftOf_eq_nil.mp hrest.ne_nil) ?_
        rintro ⟨q, hq, hall⟩
        obtain ⟨q', ⟨hle, -⟩, -⟩ := hall.resolve_left hdone
        omega

theorem finishes_loadDatabase {π : Type} (hd : d.WellBehaved) (dbId : ℕ) (parser : Parser π)
    (p : π) (commands : List Bytes) :
    Finishes (d.loadDatabase dbId parser p) commands ↔
      ∀ send, DBPacket.command DBLoader.new.send d.tableCmd DBPacket.oldGetRecords dbId [] =
          .ok send →
        TakesAll parser (d.getDBName dbId) p (d.answer (commands ++ [send.getData])) := by
  obtain ⟨send, hsend, hsize, hbytes⟩ :=
    DBPacket.command_ok DBLoader.new.send d.tableCmd DBPacket.oldGetRecords dbId []
  have hsent := DBPacket.not_refuses hsize hbytes
  have hsame {P : Data → Prop} : (∀ send', DBPacket.command DBLoader.new.send d.tableCmd
      DBPacket.oldGetRecords dbId [] = .ok send' → P send') ↔ P send :=
    ⟨fun h => h send hsend, fun h send' h' => Except.ok.inj (hsend.symm.trans h') ▸ h⟩
  rw [hsame]
  have hwhole := hd commands send.getData
  generalize hanswer : d.answer (commands ++ [send.getData]) = rs at hwhole
  rw [Finishes, finalState]
  generalize hrun : d.loadDatabase dbId parser p ⟨commands, []⟩ = result
  rw [loadDatabase] at hrun
  cases hwhole with
  | done r hr =>
    obtain ⟨l', data', -, hstart⟩ :=
      (DBLoader.startDBLoad_answer d .new dbId DBData.default hsend hsent hanswer).1 hr
    rw [bind_ok hstart] at hrun
    rw [← hrun]
    exact iff_of_true rfl (.inl hr)
  | data r rs hr hrest =>
    have hdone : r.command ≠ dbDone := by rw [hr]; decide
    rcases (DBLoader.startDBLoad_answer d .new dbId DBData.default hsend hsent hanswer).2 hr with
      ⟨hle, l', data', hloading, hstart, hname, hrecord⟩ | ⟨hlt, e, hstart⟩
    · rw [bind_ok hstart] at hrun
      have hloop := finishes_loadLoop parser (d.getDBName dbId) commands.length
        (commands ++ [send.getData]) (p := p) (l := l') hrest
        ((length_le_leftOf commands.length rs).trans (Nat.le_succ _)) hloading hname
      rw [finalState] at hloop
      rw [← hrun]
      refine hloop.trans ?_
      have hsame' : data'.record = DBPacket.recordOf (d.getDBName dbId) r.packet := by
        rw [← hrecord (d.getDBName dbId)]
        unfold getDBName
        rw [show (((d.dbdb.find? (·.1 = dbId)).map Prod.snd).getD []) =
          data'.dbName from hname.symm]
      rw [hsame', TakesAll, or_iff_right hdone]
      exact exists_congr fun p' => ⟨fun h => ⟨⟨hle, h.1⟩, h.2⟩, fun h => ⟨h.1.2, h.2⟩⟩
    · rw [bind_error hstart] at hrun
      rw [← hrun]
      refine iff_of_false (mt leftOf_eq_nil.mp hrest.ne_nil) fun h => ?_
      obtain ⟨p', ⟨hle, -⟩, -⟩ := h.resolve_left hdone
      omega

/-! ## All the operations -/

end Desktop

/-- An operation of `Desktop`, with the parser or the builder it calls. -/
inductive Operation : Type 1
  | getRecordStateTable (dbId : ℕ)
  | addRecord (dbId : ℕ) {σ : Type} (build : Builder σ) (s : σ)
  | getRecord (dbId stateTableIndex : ℕ) {π : Type} (parser : Parser π) (p : π)
  | setRecord (dbId stateTableIndex : ℕ) {σ : Type} (build : Builder σ) (s : σ)
  | clearDirty (dbId stateTableIndex : ℕ)
  | deleteRecord (dbId stateTableIndex : ℕ)
  | loadDatabase (dbId : ℕ) {π : Type} (parser : Parser π) (p : π)
  | saveDatabase (dbId : ℕ) {σ : Type} (build : Builder σ) (s : σ) (fuel : ℕ)

namespace Operation

variable (d : Desktop)

/-- An operation, with what is in the two buffers of `Desktop`. -/
def run (command response : Data) : Operation → EStateM Error Link Unit
  | getRecordStateTable dbId => do let _ ← d.getRecordStateTable dbId command response
  | addRecord dbId build s => d.addRecord dbId build s command response
  | getRecord dbId index parser p => d.getRecord dbId index parser p command response
  | setRecord dbId index build s => d.setRecord dbId index build s command response
  | clearDirty dbId index => do let _ ← d.clearDirty dbId index command response
  | deleteRecord dbId index => do let _ ← d.deleteRecord dbId index command response
  | loadDatabase dbId parser p => d.loadDatabase dbId parser p
  | saveDatabase dbId build s fuel => d.saveDatabase dbId build s fuel command response

/-- When an operation gets to the end of its answers : a parser takes every record it is given,
and there are no data in the answer to an upload. -/
def Completes (command : Data) (commands : List Bytes) : Operation → Prop
  | getRecordStateTable _ | clearDirty _ _ | deleteRecord _ _ => True
  | addRecord dbId build s => ∀ send s',
      d.addRecordPacket dbId build s command = .ok (some (send, s')) →
        d.AnswersAlone commands send
  | setRecord dbId index build s => ∀ send s',
      d.setRecordPacket dbId index build s command = .ok (some (send, s')) →
        d.AnswersAlone commands send
  | getRecord dbId index parser p => ∀ send,
      DBPacket.command command d.tableCmd 0x46 dbId (leBytes 2 index) = .ok send →
        ∀ r rs, d.answer (commands ++ [send.getData]) = r :: rs →
          r.command = dbDone ∨ ∃ p', Desktop.Takes parser (d.getDBName dbId) p r p'
  | loadDatabase dbId parser p => ∀ send,
      DBPacket.command DBLoader.new.send d.tableCmd DBPacket.oldGetRecords dbId [] = .ok send →
        Desktop.TakesAll parser (d.getDBName dbId) p (d.answer (commands ++ [send.getData]))
  | saveDatabase dbId build s fuel => ∀ send,
      DBPacket.command command d.tableCmd 0x43 dbId [] = .ok send →
        ∃ r, d.answer (commands ++ [send.getData]) = [r] ∧ (Desktop.Succeeds r →
          d.SaveAnswersAlone dbId build fuel s send (commands ++ [send.getData]))

variable {d}

/-- For every operation, whether anything of its answers is left behind it. -/
theorem finishes_run_iff (hd : d.WellBehaved) (op : Operation) (command response : Data)
    (commands : List Bytes) :
    Desktop.Finishes (op.run d command response) commands ↔ op.Completes d command commands := by
  have hread (operation : UInt8) (dbId : ℕ) (params : Bytes) : Desktop.Finishes
      (d.readAnswer operation dbId params command response >>= fun _ => pure ()) commands := by
    obtain ⟨send, out, hread⟩ :=
      Desktop.readAnswer_whole hd operation dbId params command response commands
    exact (Desktop.finishes_bind_ok hread).mpr (Desktop.finishes_pure _ _)
  cases op with
  | getRecordStateTable dbId => exact iff_of_true (hread _ _ _) trivial
  | clearDirty dbId index => exact iff_of_true (hread _ _ _) trivial
  | deleteRecord dbId index => exact iff_of_true (hread _ _ _) trivial
  | addRecord dbId build s =>
    exact Desktop.finishes_addRecord hd dbId build s command response commands
  | setRecord dbId index build s =>
    exact Desktop.finishes_setRecord hd dbId index build s command response commands
  | getRecord dbId index parser p =>
    exact Desktop.finishes_getRecord hd dbId index parser p command response commands
  | loadDatabase dbId parser p => exact Desktop.finishes_loadDatabase hd dbId parser p commands
  | saveDatabase dbId build s fuel =>
    exact Desktop.finishes_saveDatabase hd dbId build s fuel command response commands

end Operation

/-! ## Runs of operations -/

namespace Desktop

/-- One operation after the others, which gets to the end of its answers. -/
def Step (d : Desktop) (link link' : Link) : Prop :=
  ∃ (op : Operation) (command response : Data),
    op.Completes d command link.commands ∧ link' = finalState (op.run d command response) link

variable {d : Desktop}

/-- Nothing is left behind an operation that completes, if nothing was left before. -/
theorem pending_step (hd : d.WellBehaved) {link link' : Link} (h : d.Step link link')
    (hpending : link.pending = []) : link'.pending = [] := by
  obtain ⟨op, command, response, hcompletes, rfl⟩ := h
  obtain ⟨commands, pending⟩ := link
  obtain rfl : pending = [] := hpending
  exact (op.finishes_run_iff hd command response commands).mpr hcompletes

theorem pending_run (hd : d.WellBehaved) {link : Link}
    (h : Relation.ReflTransGen d.Step ⟨[], []⟩ link) : link.pending = [] := by
  induction h with
  | refl => rfl
  | tail _ hstep ih => exact pending_step hd hstep ih

/-- The first response that is read is one to the command that was sent. -/
theorem packet_own (hd : d.WellBehaved) {send receive out : Data} {commands : List Bytes}
    {link' : Link} (h : Link.packet d.answer send receive ⟨commands, []⟩ = .ok out link') :
    ∃ r ∈ d.answer (commands ++ [send.getData]), out.getData = r.packet := by
  by_cases hsend : Link.Refuses send
  · rw [Link.packet, if_pos hsend] at h
    cases h
  obtain ⟨out', r, rs, hanswer, -, hout, hdata, -⟩ := packet_whole hd hsend receive commands
  rw [hout] at h
  cases h
  exact ⟨r, hanswer ▸ List.mem_cons_self, hdata⟩

/-- An upload that is reported to have succeeded did so. -/
theorem sendRecord_own (hd : d.WellBehaved) {send response out : Data} {commands : List Bytes}
    {link' : Link} (h : d.sendRecord send response ⟨commands, []⟩ = .ok out link') :
    ∃ r, d.answer (commands ++ [send.getData]) = [r] ∧ Succeeds r := by
  by_cases hsend : Link.Refuses send
  · have hpacket : Link.packet d.answer send response ⟨commands, []⟩ =
        .error (.logicError "Socket: unknown send data in DBFragSend()") ⟨commands, []⟩ := by
      rw [Link.packet, if_pos hsend]
      rfl
    rw [sendRecord, bind_error hpacket] at h
    cases h
  rcases sendRecord_whole hd hsend response commands with
    ⟨r, rs, e, -, -, hrun⟩ | ⟨r, hanswer, ⟨hok, -⟩ | ⟨-, e, hrun⟩⟩
  · rw [hrun] at h
    cases h
  · exact ⟨r, hanswer, hok⟩
  · rw [hrun] at h
    cases h

/-- A database that is reported to be cleared is. -/
theorem clearDatabase_own (hd : d.WellBehaved) {dbId : ℕ} {command response : Data}
    {out : Data × Data} {commands : List Bytes} {link' : Link}
    (h : d.clearDatabase dbId command response ⟨commands, []⟩ = .ok out link') :
    ∃ r, d.answer (commands ++ [out.1.getData]) = [r] ∧ Succeeds r := by
  obtain ⟨send, -, hclear⟩ := clearDatabase_whole hd dbId command response commands
  rcases hclear with
    ⟨r, rs, e, -, -, hrun⟩ | ⟨r, hanswer, ⟨hok, out', hrun⟩ | ⟨-, e, hrun⟩⟩
  · rw [hrun] at h
    cases h
  · rw [hrun] at h
    cases h
    exact ⟨r, hanswer, hok⟩
  · rw [hrun] at h
    cases h

/-- After a run of operations that complete, nothing is left to read : what is read first is a
response to the command that was sent last, and a success that is reported is one of its own. -/
theorem paired_run (d : Desktop) (hd : d.WellBehaved) (link : Link)
    (h : Relation.ReflTransGen d.Step ⟨[], []⟩ link) :
    link.pending = [] ∧
    (∀ send receive out link', Link.packet d.answer send receive link = .ok out link' →
      ∃ r ∈ d.answer (link.commands ++ [send.getData]), out.getData = r.packet) ∧
    (∀ send response out link', d.sendRecord send response link = .ok out link' →
      ∃ r, d.answer (link.commands ++ [send.getData]) = [r] ∧ Succeeds r) ∧
    ∀ dbId command response out link', d.clearDatabase dbId command response link = .ok out link' →
      ∃ r, d.answer (link.commands ++ [out.1.getData]) = [r] ∧ Succeeds r := by
  have hpending := pending_run hd h
  obtain ⟨commands, pending⟩ := link
  obtain rfl : pending = [] := hpending
  exact ⟨rfl, fun _ _ _ _ => packet_own hd, fun _ _ _ _ => sendRecord_own hd,
    fun _ _ _ _ _ => clearDatabase_own hd⟩

/-- A record that is too long for one packet. -/
def longRecord : Response :=
  .inFragments 1 5 (List.replicate 2000 7) (by rw [List.length_replicate]; decide)

/-- A device that has the record for who asks for one, and says `dbDone` to everything. -/
def obliging : Desktop :=
  ⟨5, [(1, [77])], fun commands =>
    if (commands.getLastD []).getD 6 0 = 0x46 then
      [longRecord, .inOnePiece 1 dbDone 5 [0] (.inr rfl)]
    else [.inOnePiece 1 dbDone 5 [0] (.inr rfl)]⟩

theorem answer_obliging (commands : List Bytes) : obliging.answer commands =
    if (commands.getLastD []).getD 6 0 = 0x46 then
      [longRecord, .inOnePiece 1 dbDone 5 [0] (.inr rfl)]
    else [.inOnePiece 1 dbDone 5 [0] (.inr rfl)] := rfl

theorem wellBehaved_obliging : obliging.WellBehaved := fun commands command => by
  rw [answer_obliging]
  split
  · exact .data _ _ rfl (.done _ rfl)
  · exact .done _ rfl

/-- A buffer of the desktop. -/
def smallBuffer : Data :=
  .new (-1) 0x40 0x10

/-- A parser that keeps the IDs of the records. -/
def collecting : Parser (List UInt32) :=
  ⟨fun ids r => .ok (ids ++ [r.uniqueId])⟩

/-- A builder of one record, of three bytes. -/
def threeBytes : Builder Bool where
  buildRecord built data offset :=
    let (bytes, offset) := data.data.memCpy offset [1, 2, 3]
    .ok (!built, true, { data with data := bytes }, offset)
  fetchRecord built data := .ok (false, built, data)
  endOfFile built := built

/-- A record is fetched and one is uploaded, and nothing of the answers is left. -/
theorem paired_run_upload : ∃ link, Relation.ReflTransGen obliging.Step ⟨[], []⟩ link ∧
    link.commands.map (·.getD 6 0) = [0x46, 0x41] ∧ link.pending = [] := by
  let fetched :=
    finalState ((Operation.getRecord 1 0 collecting []).run obliging smallBuffer smallBuffer)
    ⟨[], []⟩
  have hfetch : obliging.Step ⟨[], []⟩ fetched := by
    refine ⟨.getRecord 1 0 collecting [], smallBuffer, smallBuffer,
      fun send _ r rs hanswer => ?_, rfl⟩
    rw [answer_obliging] at hanswer
    split at hanswer
    · obtain ⟨rfl, -⟩ := List.cons.inj hanswer
      refine .inr ⟨_, ?_, rfl⟩
      rw [Response.packet, Socket.length_frame, longRecord, Response.inFragments,
        List.length_replicate]
      decide
    · obtain ⟨rfl, -⟩ := List.cons.inj hanswer
      exact .inl rfl
  have hupload : obliging.Step fetched (finalState
      ((Operation.addRecord 1 threeBytes false).run obliging smallBuffer smallBuffer) fetched) := by
    refine ⟨.addRecord 1 threeBytes false, smallBuffer, smallBuffer, fun send s' hsend => ?_, rfl⟩
    have hbyte : ((obliging.addRecordPacket 1 threeBytes false smallBuffer).toOption.bind id).all
        (fun built => built.1.getData.getD 6 0 != 0x46) = true := by decide +kernel
    rw [hsend] at hbyte
    refine .inr ⟨.inOnePiece 1 dbDone 5 [0] (.inr rfl), ?_⟩
    rw [answer_obliging, List.getLastD_concat, if_neg (bne_iff_ne.mp hbyte)]
  have hrun := (Relation.ReflTransGen.single hfetch).tail hupload
  exact ⟨_, hrun, by decide +kernel, (paired_run obliging wellBehaved_obliging _ hrun).1⟩

/-- A device with a record and the end of the answer. -/
def oneRecord : Desktop :=
  ⟨5, [], fun _ => [Response.inOnePiece 1 dbData 5 (List.replicate 9 0) (.inl rfl),
    Response.inOnePiece 1 dbDone 5 [0] (.inr rfl)]⟩

theorem wellBehaved_oneRecord : oneRecord.WellBehaved :=
  fun _ _ => .data _ _ rfl (.done _ rfl)

/-- As a `Memo` is parsed that is not of the type the code knows. -/
def refusing : Parser Unit :=
  ⟨fun _ _ => .error (.error "Memo::ParseField: MemoType is not 'm'")⟩

/-- `GetRecord` leaves the end of the answer to the next operation, if the parser throws. -/
theorem getRecord_leaves : oneRecord.WellBehaved ∧
    (finalState (oneRecord.getRecord 1 0 refusing () .default .default) ⟨[], []⟩).pending ≠ [] := by
  refine ⟨wellBehaved_oneRecord, fun hfinishes => ?_⟩
  obtain ⟨send, hsend, -, -⟩ := DBPacket.command_ok .default oneRecord.tableCmd 0x46 1 (leBytes 2 0)
  have hcompletes := (finishes_getRecord wellBehaved_oneRecord 1 0 refusing () .default .default
    []).mp hfinishes send hsend _ _ rfl
  rcases hcompletes with hdone | ⟨p', -, hparse⟩
  · exact absurd hdone (by decide)
  · cases hparse

end Desktop

end Barry
