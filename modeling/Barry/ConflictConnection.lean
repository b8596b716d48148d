import Barry.ConflictDlg
import Barry.Lib.Sessions

/-!
# The desktop's end of a conflict

`ConflictConnection` (`SyncStatusDlg.cc`) is told of the changes of a conflict by pokes, and asked
what to do by a request. A poke starts a sequence, or is the next change of the sequence, or is
refused ; while the user is asked, all are. A request is answered if the sequence is complete : by
what is remembered, or by the user.

`wire` is what the connection makes of a text on its way into a string, and `xml` whether the parser
takes the data of a change.

Seen as a receiver of numbered messages (`ConflictConnection.received`), a connection takes what is
poked as any receiver does, but that it may fall back to nothing (`onPoke_received`). So it has the
changes of a conflict, from the first one on, whatever becomes of the pokes on their way.
-/

namespace Barry

open scoped Bytes
open OpenSync TextStream

/-- What is between the programs : a text in UTF-8 arrives as it is, and
of another nothing arrives. -/
structure Wire where
  convert : Bytes → Bytes
  convert_eq : ∀ text, 0 ∉ text → convert text = text ∨ convert text = []

/-- `ConflictConnection`, with the dialogs of the requests that are not
answered yet, the last one first. -/
structure ConflictConnection where
  askingUser : Bool
  currentSequenceID : ℤ
  currentOffset : ℤ
  expectedTotalChanges : ℤ
  supportedCommands : Bytes
  changes : List SyncChange
  always : AlwaysMemoryBlock
  dialogs : List ConflictDlg
  deriving DecidableEq

/-- What a request leads to. -/
inductive Requested
  /-- No answer, and the connection is lost. -/
  | none
  /-- The user is asked. -/
  | asks
  /-- An answer that was remembered. -/
  | answers (command : Bytes)
  deriving DecidableEq

/-- The change that the text behind its sequence and its offset is read as, and what
is left behind its strings. -/
def SyncChange.read (iss : TextStream) : SyncChange × TextStream :=
  let (id, iss) := iss.extractInt
  let (pluginName, iss) := iss.skipBlanks.lineInto []
  let (uid, iss) := iss.lineInto []
  (⟨id.getD 0, 0, pluginName, uid, iss.text⟩, iss)

namespace ConflictConnection

/-- The constructor, with the favoured plugin of the device. -/
def new (favourPluginName : Bytes) : ConflictConnection :=
  ⟨false, -1, -1, 0, [], [], ⟨false, -1, [], [], favourPluginName⟩, []⟩

/-- `OnPoke` of `Start`. -/
def onStart (con : ConflictConnection) (msg : Bytes) : ConflictConnection × Bool :=
  let (sequenceID, iss) := extractInt ⟨msg, false⟩
  let (offset, iss) := iss.extractInt
  let (total, iss) := iss.extractInt
  let (commands, iss) := iss.wordInto con.supportedCommands
  if iss.fail ∨ offset.getD 0 ≠ 0 ∨ total.getD 0 < 2 then
    ({ con with
      changes := []
      supportedCommands := commands
      currentSequenceID := -1
      currentOffset := -1
      expectedTotalChanges := 0 }, false)
  else
    ({ con with
      changes := []
      supportedCommands := commands
      currentSequenceID := sequenceID.getD 0
      currentOffset := offset.getD 0
      expectedTotalChanges := total.getD 0 }, true)

/-- `OnPoke` of `Change`. -/
def onChange (con : ConflictConnection) (msg : Bytes) : ConflictConnection × Bool :=
  let (sequenceID, iss) := extractInt ⟨msg, false⟩
  let (offset, iss) := iss.extractInt
  let (change, iss) := SyncChange.read iss
  if iss.fail ∨ sequenceID.getD 0 ≠ con.currentSequenceID ∨
    offset.getD 0 ≠ con.currentOffset + 1 then
      (con, false)
  else ({ con with currentOffset := offset.getD 0, changes := con.changes ++ [change] }, true)

/-- `OnPoke`. -/
def onPoke (wire : Wire) (con : ConflictConnection) (poke : Poke) : ConflictConnection × Bool :=
  if con.askingUser then (con, false)
  else
    match poke.1 with
    | .start => con.onStart (wire.convert poke.2)
    | .change => con.onChange (wire.convert poke.2)

/-- There is a sequence, and all of its changes are there. -/
def Complete (con : ConflictConnection) : Prop :=
  ¬(con.currentSequenceID = -1 ∨ con.currentOffset = -1 ∨ con.expectedTotalChanges < 2) ∧
    ¬(con.currentOffset ≠ con.expectedTotalChanges ∨ con.expectedTotalChanges ≠ con.changes.length)

instance (con : ConflictConnection) : Decidable con.Complete :=
  inferInstanceAs (Decidable (_ ∧ _))

/-- `OnRequest`, up to where the user is asked. A change that the parser does not take throws, with
`m_asking_user` set. -/
def onRequest (xml : Bytes → Bool) (device : Bool) (con : ConflictConnection) :
    ConflictConnection × Requested :=
  if con.Complete then
    if device ∧ con.changes.all fun change => xml change.printableData then
      match ConflictDlg.remembered con.always con.changes with
      | some command => ({ con with askingUser := false }, .answers command)
      | none =>
        ({ con with
          askingUser := true
          dialogs := ConflictDlg.new con.supportedCommands con.changes :: con.dialogs }, .asks)
    else ({ con with askingUser := true }, .none)
  else (con, .none)

/-- What the last dialog does with an event, and how it ended, if it did. -/
def onEvent (con : ConflictConnection) (event : ConflictEvent) :
    Option (ConflictConnection × Option ConflictDlg) :=
  match con.dialogs with
  | [] => some (con, none)
  | dlg :: dialogs =>
    (dlg.event con.always con.changes event).map fun (dlg, always, ends) =>
      if ends then
        ({ con with askingUser := false, always := always, dialogs := dialogs }, some dlg)
      else ({ con with always := always, dialogs := dlg :: dialogs }, none)

/-- The answer with a command. -/
def response (con : ConflictConnection) (command : Bytes) : Bytes :=
  intBytes con.currentSequenceID ++ ascii " " ++ command

end ConflictConnection

/-! ## What is read of a message -/

namespace OpenSync.SyncChange

/-- What is read of a change, if it is read. -/
def heard (change : SyncChange) : Option SyncChange :=
  let read := SyncChange.read ⟨32 :: change.text, false⟩
  if read.2.fail then none else some read.1

/-- The name of a plugin is not empty, starts with no blank and has no newline, a UID has none
either, and the identifier is an `int`. -/
structure Plain (change : SyncChange) : Prop where
  id : 0 ≤ change.id ∧ change.id < 2 ^ 31
  pluginName : 10 ∉ change.pluginName
  head : ∃ c cs, change.pluginName = c :: cs ∧ isSpace c = false
  uid : 10 ∉ change.uid

/-- A plain change is read as it was written, but for its member. -/
theorem Plain.heard {change : SyncChange} (h : change.Plain) :
    change.heard = some { change with memberId := 0 } := by
  obtain ⟨id, memberId, pluginName, uid, printableData⟩ := change
  obtain ⟨⟨hlo, hhi⟩, hplugin, ⟨c, cs, rfl, hc⟩, huid⟩ := h
  dsimp only at hlo hhi hplugin huid
  obtain ⟨n, rfl⟩ := Int.eq_ofNat_of_zero_le hlo
  have hid : intBytes (n : ℤ) = decBytes n := by simp [intBytes]
  have hread : SyncChange.read
      ⟨32 :: SyncChange.text ⟨n, memberId, c :: cs, uid, printableData⟩, false⟩ =
      (⟨n, 0, c :: cs, uid, printableData⟩, ⟨printableData, false⟩) := by
    have htext : 32 :: SyncChange.text ⟨n, memberId, c :: cs, uid, printableData⟩ =
        [32] ++ decBytes n ++ 32 :: 10 :: ((c :: cs) ++ 10 :: (uid ++ 10 :: printableData)) := by
      simp [SyncChange.text, hid, ascii]
    have hskip : skipBlanks ⟨32 :: 10 :: ((c :: cs) ++ 10 :: (uid ++ 10 :: printableData)), false⟩ =
        ⟨(c :: cs) ++ 10 :: (uid ++ 10 :: printableData), false⟩ := by
      rw [skipBlanks, if_neg (by simp)]
      simp [List.dropWhile, hc, show isSpace 32 = true by decide, show isSpace 10 = true by decide]
    rw [SyncChange.read, htext, extractInt_of_lt (by decide) (by omega) (by simp [isDigit])]
    dsimp only
    rw [hskip, lineInto_append hplugin, lineInto_append huid]
    rfl
  rw [SyncChange.heard, hread]
  rfl

theorem fail_read {iss : TextStream} (h : iss.extractInt.2.fail = true) :
    (SyncChange.read iss).2.fail = true := by
  rw [SyncChange.read]
  dsimp only
  rw [skipBlanks_of_fail h, lineInto_of_fail h]
  dsimp only
  rw [lineInto_of_fail h]
  exact h

/-- The identifier is read as it was written. -/
theorem id_of_heard {change heard : SyncChange} (hid : 0 ≤ change.id)
    (h : change.heard = some heard) :
    heard.id = change.id ∧ change.id < 2 ^ 31 := by
  obtain ⟨n, hn⟩ := Int.eq_ofNat_of_zero_le hid
  have htext : 32 :: change.text =
      [32] ++ decBytes n ++ 32 :: 10 :: (change.pluginName ++ ascii "\n" ++
      change.uid ++ ascii "\n" ++ change.printableData) := by
    have hbytes : intBytes (n : ℤ) = decBytes n := by simp [intBytes]
    simp [SyncChange.text, hn, hbytes, ascii]
  rw [SyncChange.heard, htext] at h
  split at h
  · cases h
  · rename_i hread
    obtain rfl := Option.some.inj h
    by_cases hlt : n < 2 ^ 31
    · rw [SyncChange.read, extractInt_of_lt (by decide) hlt (by simp [isDigit])]
      exact ⟨hn.symm, by omega⟩
    · exact absurd (fail_read (fail_extractInt_of_le (by decide) (by omega) (by simp [isDigit])))
        hread

end OpenSync.SyncChange

namespace ConflictConnection

variable {con : ConflictConnection} {n offset : ℕ} {c : SyncConflict} {change heard : SyncChange}
    {wire : Wire}

/-- Where the texts behind two numbers start, if the numbers are read. -/
theorem extractInt_two (text : Bytes) (hn : n < 2 ^ 31) (hoffset : offset < 2 ^ 31) :
    let sequence := extractInt ⟨decBytes n ++ ascii " " ++ decBytes offset ++ 32 :: text, false⟩
    sequence.1 = some (n : ℤ) ∧
    sequence.2.extractInt = (some (offset : ℤ), ⟨32 :: text, false⟩) := by
  have htext : decBytes n ++ ascii " " ++ decBytes offset ++ 32 :: text =
      [] ++ decBytes n ++ ([32] ++ decBytes offset ++ 32 :: text) := by
    simp [ascii]
  rw [htext, extractInt_of_lt (by simp) hn (by simp [isDigit])]
  exact ⟨rfl, extractInt_of_lt (by decide) hoffset (by simp [isDigit])⟩

/-- A number that is too large fails the whole text. -/
theorem fail_extractInt_two (text : Bytes) (h : ¬(n < 2 ^ 31 ∧ offset < 2 ^ 31)) :
    (extractInt
      ⟨decBytes n ++ ascii " " ++ decBytes offset ++ 32 :: text, false⟩).2.extractInt.2.fail =
      true := by
  have htext : decBytes n ++ ascii " " ++ decBytes offset ++ 32 :: text =
      [] ++ decBytes n ++ ([32] ++ decBytes offset ++ 32 :: text) := by
    simp [ascii]
  rw [htext]
  by_cases hn : n < 2 ^ 31
  · rw [extractInt_of_lt (by simp) hn (by simp [isDigit])]
    exact fail_extractInt_of_le (by decide) (by omega) (by simp [isDigit])
  · have hfail :=
      @fail_extractInt_of_le ([32] ++ decBytes offset ++ 32 :: text) [] (by simp) n (by omega)
      (by simp [isDigit])
    rw [extractInt_of_fail hfail]
    exact hfail

/-! ## A receiver of numbered messages -/

/-- What a connection has of a sequence. -/
def received (con : ConflictConnection) : Received ℤ (ℤ × Bytes) (Option SyncChange) :=
  if con.currentSequenceID = -1 then none
  else some (con.currentSequenceID, (con.expectedTotalChanges, con.supportedCommands),
    con.changes.map some)

/-- The offset is the number of the changes. -/
def Counted (con : ConflictConnection) : Prop :=
  con.currentSequenceID ≠ -1 → con.currentOffset = con.changes.length

/-- The messages that the pokes for a conflict are read as. -/
def messages (n : ℕ) (c : SyncConflict) : List (Numbered ℤ (ℤ × Bytes) (Option SyncChange)) :=
  Numbered.messages (n : ℤ) ((c.changes.length : ℤ), c.commands) (c.changes.map SyncChange.heard)

theorem changeText_eq (n offset : ℕ) (change : SyncChange) :
    BarrySyncJail.changeText n offset change =
    decBytes n ++ ascii " " ++ decBytes offset ++ 32 :: change.text := by
  simp [BarrySyncJail.changeText, ascii]

/-- A change that can be read is taken if it is the next one of the sequence. -/
theorem onChange_of_heard (con : ConflictConnection) (hn : n < 2 ^ 31) (hoffset : offset < 2 ^ 31)
    (hheard : change.heard = some heard) : con.onChange (BarrySyncJail.changeText n offset change) =
      if (n : ℤ) = con.currentSequenceID ∧ (offset : ℤ) = con.currentOffset + 1 then
        ({ con with currentOffset := offset, changes := con.changes ++ [heard] }, true)
      else (con, false) := by
  obtain ⟨hsequence, hsecond⟩ := extractInt_two change.text hn hoffset
  rw [SyncChange.heard] at hheard
  split at hheard
  · cases hheard
  · rename_i hread
    obtain rfl := Option.some.inj hheard
    rw [changeText_eq, onChange]
    dsimp only
    rw [hsecond, hsequence]
    dsimp only [Option.getD_some]
    by_cases hnext : (n : ℤ) = con.currentSequenceID ∧ (offset : ℤ) = con.currentOffset + 1
    · have htaken : ¬((SyncChange.read ⟨32 :: change.text, false⟩).2.fail = true ∨
          (n : ℤ) ≠ con.currentSequenceID ∨ (offset : ℤ) ≠ con.currentOffset + 1) := by
        tauto
      rw [if_pos hnext, if_neg htaken]
    · have hrefused : (SyncChange.read ⟨32 :: change.text, false⟩).2.fail = true ∨
          (n : ℤ) ≠ con.currentSequenceID ∨ (offset : ℤ) ≠ con.currentOffset + 1 := by
        tauto
      rw [if_neg hnext, if_pos hrefused]

/-- A change that cannot be read is refused. -/
theorem onChange_of_not_heard (con : ConflictConnection)
    (h : ¬(n < 2 ^ 31 ∧ offset < 2 ^ 31) ∨ change.heard = none) :
    con.onChange (BarrySyncJail.changeText n offset change) = (con, false) := by
  rw [changeText_eq, onChange]
  dsimp only
  rw [if_pos]
  left
  by_cases hint : n < 2 ^ 31 ∧ offset < 2 ^ 31
  · have hheard := h.resolve_left (· hint)
    rw [SyncChange.heard] at hheard
    rw [(extractInt_two change.text hint.1 hint.2).2]
    split at hheard
    · assumption
    · cases hheard
  · have hfail := fail_extractInt_two change.text hint
    refine SyncChange.fail_read ?_
    rw [extractInt_of_fail hfail]
    exact hfail

theorem isSpace_of_mem_commands (c : SyncConflict) : ∀ b ∈ c.commands, isSpace b = false := by
  have hletters : ∀ (p : Bool) (letter : Bytes), (∀ b ∈ letter, isSpace b = false) →
      ∀ b ∈ (if p then letter else []), isSpace b = false := by
    intro p letter h b hb
    split at hb
    · exact h b hb
    · exact absurd hb List.not_mem_nil
  simp only [SyncConflict.commands, List.forall_mem_append]
  exact ⟨⟨⟨by decide, hletters _ _ (by decide)⟩, hletters _ _ (by decide)⟩,
    hletters _ _ (by decide)⟩

theorem startText_eq (n : ℕ) (c : SyncConflict) : BarrySyncJail.startText n c =
    decBytes n ++ ascii " " ++ decBytes 0 ++
    32 :: (decBytes c.changes.length ++ 32 :: c.commands) := by
  simp [BarrySyncJail.startText, ascii]

/-- The start of a sequence of two changes or more begins it. -/
theorem onStart_startText (con : ConflictConnection) (hn : n < 2 ^ 31) (htwo : 2 ≤ c.changes.length)
    (hlength : c.changes.length < 2 ^ 31) : con.onStart (BarrySyncJail.startText n c) =
      ({ con with
        changes := []
        supportedCommands := c.commands
        currentSequenceID := n
        currentOffset := 0
        expectedTotalChanges := c.changes.length }, true) := by
  obtain ⟨hsequence, hsecond⟩ :=
    @extractInt_two n 0 (decBytes c.changes.length ++ 32 :: c.commands) hn
    (by norm_num)
  have hthird : extractInt ⟨32 :: (decBytes c.changes.length ++ 32 :: c.commands), false⟩ =
      (some (c.changes.length : ℤ), ⟨32 :: c.commands, false⟩) :=
    @extractInt_of_lt (32 :: c.commands) [32] (by decide) _ hlength (by simp [isDigit])
  have hcommands : wordInto con.supportedCommands ⟨32 :: c.commands, false⟩ =
      (c.commands, ⟨[], false⟩) :=
    wordInto_cons (by simp [SyncConflict.commands, ascii]) (isSpace_of_mem_commands c) _
  rw [startText_eq, onStart]
  dsimp only
  rw [hsecond]
  dsimp only
  rw [hthird]
  dsimp only
  rw [hcommands, hsequence]
  dsimp only [Option.getD_some]
  rw [if_neg (by simp; omega)]
  rfl

/-- No other start does. -/
theorem snd_onStart_startText (con : ConflictConnection)
    (h : ¬(n < 2 ^ 31 ∧ 2 ≤ c.changes.length ∧ c.changes.length < 2 ^ 31)) :
    (con.onStart (BarrySyncJail.startText n c)).2 = false := by
  rw [startText_eq, onStart]
  dsimp only
  split
  · rfl
  · rename_i hread
    refine absurd ?_ h
    by_cases hn : n < 2 ^ 31 ∧ 0 < 2 ^ 31
    · obtain ⟨-, hsecond⟩ :=
        @extractInt_two n 0 (decBytes c.changes.length ++ 32 :: c.commands) hn.1 hn.2
      rw [hsecond] at hread
      dsimp only at hread
      by_cases hlength : c.changes.length < 2 ^ 31
      · have hthird : extractInt ⟨32 :: (decBytes c.changes.length ++ 32 :: c.commands), false⟩ =
            (some (c.changes.length : ℤ), ⟨32 :: c.commands, false⟩) :=
          @extractInt_of_lt (32 :: c.commands) [32] (by decide) _ hlength (by simp [isDigit])
        rw [hthird] at hread
        simp only [not_or, Option.getD_some] at hread
        exact ⟨hn.1, by omega, hlength⟩
      · have hfail :
            (extractInt ⟨32 :: (decBytes c.changes.length ++ 32 :: c.commands), false⟩).2.fail =
            true :=
          @fail_extractInt_of_le (32 :: c.commands) [32] (by decide) _ (by omega)
            (by simp [isDigit])
        rw [wordInto_of_fail hfail] at hread
        exact absurd (.inl hfail) hread
    · have hfail := @fail_extractInt_two n 0 (decBytes c.changes.length ++ 32 :: c.commands) hn
      rw [extractInt_of_fail hfail] at hread
      dsimp only at hread
      rw [wordInto_of_fail hfail] at hread
      exact absurd (.inl hfail) hread

/-- A start that is refused leaves no sequence. -/
theorem received_onStart_of_refused {msg : Bytes} (h : (con.onStart msg).2 = false) :
    (con.onStart msg).1.received = none ∧ (con.onStart msg).1.Counted := by
  rw [onStart] at h ⊢
  dsimp only at h ⊢
  split at h
  · rename_i hread
    rw [if_pos hread]
    exact ⟨rfl, fun h => absurd rfl h⟩
  · cases h

/-- A poke does not touch the dialogs, nor what they remember. -/
theorem onPoke_frame (wire : Wire) (con : ConflictConnection) (poke : Poke) :
    let next := (con.onPoke wire poke).1
    next.askingUser = con.askingUser ∧ next.always = con.always ∧ next.dialogs = con.dialogs := by
  dsimp only
  rw [onPoke]
  split
  · exact ⟨rfl, rfl, rfl⟩
  · split
    · rw [onStart]
      dsimp only
      split
      · exact ⟨rfl, rfl, rfl⟩
      · exact ⟨rfl, rfl, rfl⟩
    · rw [onChange]
      dsimp only
      split
      · exact ⟨rfl, rfl, rfl⟩
      · exact ⟨rfl, rfl, rfl⟩

/-- What a poke leaves : what a receiver of its message has, or what there was, or nothing. -/
theorem onPoke_received {poke : Poke} (hpoke : poke ∈ BarrySyncJail.pokes n c) (wire : Wire)
    (hcounted : con.Counted) :
    let next := (con.onPoke wire poke).1
    next.Counted ∧ (next.received = con.received ∨ next.received = none ∨
      ∃ m ∈ messages n c, next.received = Numbered.receive con.received m) := by
  have hzero := zero_not_mem_pokes hpoke
  dsimp only
  rw [onPoke]
  split
  · exact ⟨hcounted, .inl rfl⟩
  · rcases List.mem_cons.mp hpoke with rfl | hpoke
    · rcases wire.convert_eq _ hzero with hwire | hwire
      · dsimp only at hwire ⊢
        rw [hwire]
        by_cases hint : n < 2 ^ 31 ∧ 2 ≤ c.changes.length ∧ c.changes.length < 2 ^ 31
        · rw [onStart_startText con hint.1 hint.2.1 hint.2.2]
          refine ⟨fun _ => rfl, .inr (.inr ⟨_, List.mem_cons_self, ?_⟩)⟩
          rw [received, if_neg (by dsimp only; omega)]
          rfl
        · obtain ⟨hnone, hcount⟩ := received_onStart_of_refused (snd_onStart_startText con hint)
          exact ⟨hcount, .inr (.inl hnone)⟩
      · dsimp only at hwire ⊢
        rw [hwire]
        obtain ⟨hnone, hcount⟩ := @received_onStart_of_refused con [] rfl
        exact ⟨hcount, .inr (.inl hnone)⟩
    · obtain ⟨i, hi, rfl⟩ := List.mem_mapIdx.mp hpoke
      rcases wire.convert_eq _ hzero with hwire | hwire
      · dsimp only at hwire ⊢
        rw [hwire]
        by_cases hint : n < 2 ^ 31 ∧ i + 1 < 2 ^ 31
        · cases hheard : c.changes[i].heard with
          | none =>
            rw [onChange_of_not_heard con (.inr hheard)]
            exact ⟨hcounted, .inl rfl⟩
          | some heard =>
            rw [onChange_of_heard con hint.1 hint.2 hheard]
            split
            · rename_i hnext
              obtain ⟨hn, hoffset⟩ := hnext
              have hcount := hcounted (by omega)
              refine ⟨fun _ => ?_, .inr (.inr ⟨.item (n : ℤ) (i + 1) (some heard), ?_, ?_⟩)⟩
              · dsimp only
                rw [List.length_append, hoffset, hcount]
                rfl
              · rw [messages, Numbered.messages]
                refine List.mem_cons_of_mem _ (List.mem_mapIdx.mpr ⟨i, by simpa using hi, ?_⟩)
                rw [List.getElem_map, hheard]
              · have hne : con.currentSequenceID ≠ -1 := by omega
                rw [received, received, if_neg hne, if_neg hne, Numbered.receive, if_pos]
                · simp
                · simp only [List.length_map]
                  omega
            · exact ⟨hcounted, .inl rfl⟩
        · rw [onChange_of_not_heard con (.inl hint)]
          exact ⟨hcounted, .inl rfl⟩
      · dsimp only at hwire ⊢
        rw [hwire]
        exact ⟨hcounted, .inl rfl⟩

end ConflictConnection

end Barry
