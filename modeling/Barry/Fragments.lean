import Barry.Socket

/-!
# Fragments that are too short

`AppendFragment` takes the six bytes of a fragment's header from its length, but the receiving
loop only checks that a packet has five. `loopCopies` are the copies the loop makes, `Fit` says of
the packets that none the loop appends is too short or too long, and `packet_safe_iff` that `Packet`
neither copies a negative length nor reads outside a packet exactly if the packets fit.
-/

namespace Barry

open Protocol

namespace Socket

/-! ## Sending -/

theorem releaseBuffer_ne_fault {d : Data} {n : ℤ} (h : n ≠ -1) (what : String) :
    d.releaseBuffer n ≠ .error (.fault what) := by
  rw [Data.releaseBuffer]
  split
  · simp
  · split
    · simp
    · split
      · simp
      · simp

theorem makeNextFragment_ne_fault (whole fragment : Data) (offset : ℕ) (what : String) :
    makeNextFragment whole fragment offset ≠ .error (.fault what) := by
  rw [makeNextFragment]
  split
  · simp
  · dsimp only
    split
    · rename_i e he
      rintro h
      rw [Except.error.inj h] at he
      exact releaseBuffer_ne_fault (by omega) what he
    · simp

theorem syncSend_ne_fault (s : Socket) (send : Data) (what : String) :
    s.syncSend send ≠ .error (.fault what) := by
  rw [syncSend]
  rcases hincoming : (s.rawSend send).1.incoming with _ | ⟨packet, rest⟩
  · simp [receive, hincoming]
  · simp only [receive, hincoming]
    split <;> simp

theorem sendFragments_ne_fault (send : Data) (what : String) (s : Socket) (outFrag : Data)
    (offset : ℕ) : sendFragments send s outFrag offset ≠ .error (.fault what) := by
  induction hk : payloadLeft send offset using Nat.strong_induction_on generalizing s outFrag offset
    with
  | _ k ih =>
    rw [sendFragments]
    split
    · rename_i e he
      rintro h
      rw [Except.error.inj h] at he
      exact makeNextFragment_ne_fault _ _ _ _ he
    · rename_i made next hmade
      split
      · rename_i e he
        rintro h
        rw [Except.error.inj h] at he
        exact syncSend_ne_fault _ _ _ he
      · split
        · simp
        · rename_i hne
          rw [makeNextFragment_snd hmade] at hne ⊢
          exact ih _ (hk ▸ payloadLeft_nextOffset_lt hne) _ _ _ rfl

theorem dbFragSend_ne_fault (s : Socket) (send : Data) (what : String) :
    s.dbFragSend send ≠ .error (.fault what) := by
  rw [dbFragSend]
  split
  · simp
  · split
    · split
      · rename_i e he
        rintro h
        rw [Except.error.inj h] at he
        exact syncSend_ne_fault _ _ _ he
      · simp
    · exact sendFragments_ne_fault _ _ _ _ _

/-! ## Appending -/

/-- The length `AppendFragment` copies from a fragment, an `int`. -/
def fragSize (fragment : Data) : ℤ :=
  toInt ((fragment.getSize : ℤ) - fragHeaderSize)

/-- The copy from a fragment, the second of the two, lies inside its packet. -/
def InPacket (c : Data × Data) : Prop :=
  0 ≤ fragSize c.2 ∧ fragHeaderSize + fragSize c.2 ≤ c.2.getSize

/-- Sizes `AppendFragment` can take : a fragment with a whole header, behind data whose size
an `int` has. -/
structure Appendable (whole fragment : ℕ) : Prop where
  whole : whole % 2 ^ 32 < 2 ^ 31
  header : fragHeaderSize ≤ fragment
  fragment : (fragment - fragHeaderSize) % 2 ^ 32 < 2 ^ 31

/-- The size `AppendFragment` makes of two. -/
def joined (whole fragment : ℕ) : ℕ :=
  whole % 2 ^ 32 + (fragment - fragHeaderSize) % 2 ^ 32

theorem toInt_nonneg_iff (n : ℤ) : 0 ≤ toInt n ↔ n % 2 ^ 32 < 2 ^ 31 := by
  rw [toInt, Int.bmod_def]
  omega

theorem toInt_of_nonneg {n : ℤ} (h : 0 ≤ toInt n) : toInt n = n % 2 ^ 32 := by
  rw [toInt_nonneg_iff] at h
  rw [toInt, Int.bmod_def]
  omega

theorem toInt_neg_of_sum {n : ℤ} (hle : 2 ^ 31 ≤ n) (hlt : n < 2 ^ 32 - 1) : toInt n < -1 := by
  rw [toInt, Int.bmod_def]
  omega

theorem appendable_iff (whole fragment : Data) : Appendable whole.getSize fragment.getSize ↔
    0 ≤ toInt whole.getSize ∧ 0 ≤ fragSize fragment := by
  rw [fragSize, toInt_nonneg_iff, toInt_nonneg_iff, fragHeaderSize]
  constructor
  · rintro ⟨hwhole, hheader, hfragment⟩
    rw [fragHeaderSize] at hheader hfragment
    omega
  · rintro ⟨hwhole, hfragment⟩
    exact ⟨by omega, by rw [fragHeaderSize]; omega, by rw [fragHeaderSize]; omega⟩

theorem inPacket_of_appendable {c : Data × Data} (h : Appendable c.1.getSize c.2.getSize) :
    InPacket c := by
  obtain ⟨-, hpos⟩ := (appendable_iff c.1 c.2).mp h
  have hheader := h.header
  have hle := toInt_of_nonneg hpos
  refine ⟨hpos, ?_⟩
  rw [fragSize, hle]
  omega

variable {whole fragment : Data}

/-- A size that was asked for can be given back, whatever was written. -/
theorem releaseBuffer_getBuffer_write {n k : ℕ} (pos : ℕ) (bytes : Bytes)
    (hroom : n ≤ (whole.getBuffer k).getBufSize) :
    ∃ w, ((whole.getBuffer k).write pos bytes).releaseBuffer n = .ok w ∧ w.dataSize = n := by
  rw [Data.releaseBuffer_of_le (by simp) (by simpa using hroom)]
  exact ⟨_, rfl, by simp⟩

/-- Appending never faults if the sizes are good : it gives the joined size, or refuses one that
no `int` has. -/
theorem appendFragment_of_appendable (hne : whole.getSize ≠ 0)
    (h : Appendable whole.getSize fragment.getSize) :
    (joined whole.getSize fragment.getSize < 2 ^ 31 ∧ ∃ w, appendFragment whole fragment = .ok w ∧
      w.getSize = joined whole.getSize fragment.getSize) ∨
    (2 ^ 31 ≤ joined whole.getSize fragment.getSize ∧ appendFragment whole fragment = .error
      (.logicError "Data::ReleaseBuffer() argument must be -1 or >= 0")) := by
  obtain ⟨hsize, hfragsize⟩ := (appendable_iff whole fragment).mp h
  have hnonneg : ¬(toInt whole.getSize < 0 ∨ fragSize fragment < 0) := by omega
  have hwhole := toInt_of_nonneg hsize
  have hfrag := toInt_of_nonneg hfragsize
  have hheader := h.header
  have hlt := h.whole
  have hlt' := h.fragment
  have hsum : toInt whole.getSize + fragSize fragment =
      (joined whole.getSize fragment.getSize : ℤ) := by
    rw [fragSize, hwhole, hfrag, joined]
    omega
  rw [fragSize] at hnonneg hsum
  simp only [appendFragment, hne, hnonneg, if_false, hsum]
  generalize hbytes : slice fragment.getData fragHeaderSize _ = bytes
  rcases Nat.lt_or_ge (joined whole.getSize fragment.getSize) (2 ^ 31) with hjoin | hjoin
  · left
    have hroom : joined whole.getSize fragment.getSize ≤ (whole.getBuffer
        ((toInt whole.getSize).toNat + fragment.getSize)).getBufSize := by
      refine le_trans ?_ Data.le_getBufSize_getBuffer
      rw [hwhole, joined]
      omega
    have hint : toInt (joined whole.getSize fragment.getSize) =
        (joined whole.getSize fragment.getSize : ℤ) := toInt_of_lt hjoin
    obtain ⟨w, hw, hwsize⟩ := releaseBuffer_getBuffer_write (toInt whole.getSize).toNat bytes hroom
    rw [hint, hw]
    exact ⟨hjoin, _, rfl, by simp [Data.getSize, hwsize]⟩
  · right
    have hle : (2 ^ 31 : ℤ) ≤ joined whole.getSize fragment.getSize := by exact_mod_cast hjoin
    have hlt32 : (joined whole.getSize fragment.getSize : ℤ) < 2 ^ 32 - 1 := by
      rw [joined]
      omega
    have hneg := toInt_neg_of_sum hle hlt32
    generalize toInt (joined whole.getSize fragment.getSize) = n at hneg ⊢
    rw [Data.releaseBuffer_neg (lt_trans hneg (by decide)) hneg.ne]
    exact ⟨hjoin, rfl⟩

/-- Appending faults exactly if the fragment is too short, or a length no `int`. -/
theorem appendFragment_fault_iff (hne : whole.getSize ≠ 0) :
    (∃ what, appendFragment whole fragment = .error (.fault what)) ↔
      ¬Appendable whole.getSize fragment.getSize := by
  constructor
  · rintro ⟨what, hwhat⟩ h
    rcases appendFragment_of_appendable hne h with ⟨-, w, hw, -⟩ | ⟨-, hrefused⟩
    · rw [hw] at hwhat
      cases hwhat
    · rw [hrefused] at hwhat
      cases hwhat
  · intro h
    rw [appendable_iff, fragSize] at h
    have hneg : toInt whole.getSize < 0 ∨
        toInt ((fragment.getSize : ℤ) - fragHeaderSize) < 0 := by omega
    refine ⟨"SocketZero::AppendFragment", ?_⟩
    simp only [appendFragment, hne, if_false, hneg, if_true]
    rfl

/-! ## The copies of the loop -/

/-- What a turn gives `AppendFragment` to copy from : the two, if `receive` is not empty. -/
def copies (a : Assembly) : List (Data × Data) :=
  let command := commandField a.inputBuf.getData
  if 0 < a.inputBuf.getSize ∧ checkSize a.inputBuf packetHeaderSize = .ok () ∧ a.frag ∧
      (command = dbData ∨ command = dbFragmented) ∧ a.receive.getSize ≠ 0 then
    [(a.receive, a.inputBuf)]
  else []

/-- The copies of the loop, in order. -/
def loopCopies (a : Assembly) : List Data → List (Data × Data)
  | [] => []
  | packet :: rest => copies (a.read packet) ++
      match packetStep (a.read packet) with
      | .ok (a, false) => loopCopies a rest
      | _ => []

/-- The packets, from the next one read, fit behind the `total` bytes of the fragments before
them : none that is appended is too short, until one is the last or is refused. -/
def Fit : ℕ → ℕ → List Data → Prop
  | _, _, [] => True
  | total, blankCount, packet :: rest =>
    let command := commandField packet.getData
    if packet.getSize = 0 then blankCount + 1 ≠ 10 → Fit total (blankCount + 1) rest
    else if checkSize packet packetHeaderSize ≠ .ok () then True
    else if command = sequenceHandshake then Fit total 0 rest
    else if command = dbData then total ≠ 0 → Appendable total packet.getSize
    else if command = dbFragmented then
      if total = 0 then Fit packet.getSize 0 rest
      else Appendable total packet.getSize ∧ (joined total packet.getSize < 2 ^ 31 →
        Fit (joined total packet.getSize) 0 rest)
    else True

theorem checkSize_ne_fault (packet : Data) (n : ℕ) (what : String) :
    checkSize packet n ≠ .error (.fault what) := by
  rw [checkSize]
  split <;> simp

/-- To an empty `receive` the fragment is copied whole. -/
theorem appendFragment_of_empty (fragment : Data) (h : whole.getSize = 0) :
    ∃ w, appendFragment whole fragment = .ok w ∧ w.getSize = fragment.getSize := by
  have hassign : (whole.assign fragment).getSize = fragment.getSize := by
    rw [Data.getSize, ← Data.length_getData, Data.getData_assign, Data.length_getData]
    rfl
  simp only [appendFragment, h, if_true]
  refine ⟨_, rfl, ?_⟩
  simpa [Data.getSize] using hassign

section Dispatch

variable {a : Assembly}

/-- Only a fragment behind another is appended. -/
def Appends (a : Assembly) : Prop :=
  a.frag = true ∧
    (commandField a.inputBuf.getData = dbData ∨ commandField a.inputBuf.getData = dbFragmented)

theorem dispatch_ne_fault (h : ¬Appends a) (what : String) :
    dispatch a ≠ .error (.fault what) := by
  rw [dispatch]
  split
  · simp
  · split
    · rename_i hdata
      rw [if_neg fun hfrag => h ⟨hfrag, .inl hdata⟩]
      simp
    · split
      · rename_i hfragmented
        rw [if_neg fun hfrag => h ⟨hfrag, .inr hfragmented⟩]
        simp
      · split <;> simp

theorem dispatch_fault_iff (h : Appends a) (what : String) :
    dispatch a = .error (.fault what) ↔
      appendFragment a.receive a.inputBuf = .error (.fault what) := by
  obtain ⟨hfrag, hcommand⟩ := h
  rcases happend : appendFragment a.receive a.inputBuf with e | w
  · rcases hcommand with hdata | hfragmented
    · simp [dispatch, hdata, hfrag, happend, sequenceHandshake, dbData]
    · simp [dispatch, hfragmented, hfrag, happend, sequenceHandshake, dbData, dbFragmented]
  · rcases hcommand with hdata | hfragmented
    · simp [dispatch_last hdata hfrag happend]
    · simp [dispatch_later hfragmented hfrag happend]

theorem dispatch_refused {e : Error} (h : commandField a.inputBuf.getData = dbFragmented)
    (hfrag : a.frag = true) (he : appendFragment a.receive a.inputBuf = .error e) :
    dispatch a = .error e := by
  simp [dispatch, h, hfrag, he, dbFragmented, sequenceHandshake, dbData]

/-- A turn faults exactly if a copy it makes is not good. -/
theorem packetStep_fault_iff : (∃ what, packetStep a = .error (.fault what)) ↔
    ∃ c ∈ copies a, ¬Appendable c.1.getSize c.2.getSize := by
  by_cases hpos : 0 < a.inputBuf.getSize
  · rcases hcheck : checkSize a.inputBuf packetHeaderSize with e | ⟨⟩
    · have hne := checkSize_ne_fault a.inputBuf packetHeaderSize
      rw [hcheck] at hne
      have he : ∀ what, e ≠ .fault what := fun what h => hne what (congrArg _ h)
      simp [packetStep, hpos, hcheck, copies, he]
    · rw [packetStep_of_checkSize hcheck]
      by_cases happends : Appends a
      · have hdispatch : ∀ what, dispatch { a with blankCount := 0 } = .error (.fault what) ↔
            appendFragment a.receive a.inputBuf = .error (.fault what) :=
          dispatch_fault_iff happends
        simp only [hdispatch]
        by_cases hempty : a.receive.getSize = 0
        · obtain ⟨w, hw, -⟩ := appendFragment_of_empty a.inputBuf hempty
          simp [copies, hempty, hw]
        · rw [appendFragment_fault_iff hempty]
          simp [copies, hpos, hcheck, happends.1, happends.2, hempty]
      · have hdispatch : ∀ what, dispatch { a with blankCount := 0 } ≠ .error (.fault what) :=
          dispatch_ne_fault happends
        have hnone : copies a = [] := if_neg fun h => happends ⟨h.2.2.1, h.2.2.2.1⟩
        simp [hdispatch, hnone]
  · have hnone : copies a = [] := if_neg fun h => hpos h.1
    rw [packetStep, if_neg hpos, hnone]
    split <;> simp

end Dispatch

/-- The loop faults exactly if a copy it makes is not good. -/
theorem packetLoop_fault_iff (a : Assembly) (packets : List Data) :
    (∃ what, packetLoop a packets = .error (.fault what)) ↔
      ∃ c ∈ loopCopies a packets, ¬Appendable c.1.getSize c.2.getSize := by
  induction packets generalizing a with
  | nil => simp [packetLoop, loopCopies]
  | cons packet rest ih =>
    have hstep := packetStep_fault_iff (a := a.read packet)
    rcases hturn : packetStep (a.read packet) with e | ⟨b, done⟩
    · rw [hturn] at hstep
      simpa [packetLoop, loopCopies, hturn] using hstep
    · have hgood : ¬∃ c ∈ copies (a.read packet), ¬Appendable c.1.getSize c.2.getSize := by
        rw [← hstep, hturn]
        simp
      cases done with
      | true =>
        simp only [packetLoop, loopCopies, hturn, List.append_nil]
        exact iff_of_false (by simp) hgood
      | false =>
        simp only [packetLoop, loopCopies, hturn, List.mem_append]
        rw [ih b]
        constructor
        · rintro ⟨c, hc, hbad⟩
          exact ⟨c, .inr hc, hbad⟩
        · rintro ⟨c, hc | hc, hbad⟩
          · exact absurd ⟨c, hc, hbad⟩ hgood
          · exact ⟨c, hc, hbad⟩

/-! ## What the packets tell -/

/-- The size of the fragments so far. -/
def Assembly.total (a : Assembly) : ℕ :=
  if a.frag then a.receive.getSize else 0

/-- The buffer for later fragments is not there before the first. -/
def Assembly.Sound (a : Assembly) : Prop :=
  a.frag = false → a.inFrag = none

theorem Assembly.commandField_read (a : Assembly) (packet : Data) (n : ℕ) : commandField (inputBuf
    { a.read packet with blankCount := n }).getData = commandField packet.getData :=
  congrArg commandField (a.getData_inputBuf_read packet)

section Turn

variable {a : Assembly} (packet : Data) (n : ℕ)

theorem Assembly.sound_read (h : a.Sound) :
    Assembly.Sound { a.read packet with blankCount := n } := by
  intro hfrag
  have ha : a.frag = false := (a.frag_read packet).symm.trans hfrag
  exact (a.kept_read packet n).inFrag ha (h ha)

theorem Assembly.total_read : Assembly.total { a.read packet with blankCount := n } = a.total := by
  rw [total, total]
  change (if (a.read packet).frag = true then (a.read packet).receive.getSize else 0) = _
  rw [a.frag_read packet]
  by_cases hfrag : a.frag = true
  · rw [if_pos hfrag, if_pos hfrag, a.receive_read_of_frag packet hfrag]
  · rw [if_neg hfrag, if_neg hfrag]

variable {packet}

theorem copies_read_of_total (hcheck : checkSize packet packetHeaderSize = .ok ())
    (hcommand : commandField packet.getData = dbData ∨ commandField packet.getData = dbFragmented)
    (htotal : a.total ≠ 0) :
    ∃ c, copies (a.read packet) = [c] ∧ c.1.getSize = a.total ∧ c.2.getSize = packet.getSize := by
  have hfrag : a.frag = true := by
    by_contra hfrag
    exact htotal (if_neg hfrag)
  have hsize : a.total = a.receive.getSize := if_pos hfrag
  have hcheck' : checkSize (a.read packet).inputBuf packetHeaderSize = .ok () := by
    rwa [checkSize_congr (a.getData_inputBuf_read packet)]
  have hpos : 0 < packet.getSize := lt_of_lt_of_le (by decide) (le_getSize_of_checkSize hcheck)
  rw [hsize] at htotal ⊢
  refine ⟨((a.read packet).receive, (a.read packet).inputBuf), if_pos ?_, ?_, ?_⟩
  · simp only [Assembly.getSize_inputBuf_read, Assembly.frag_read, Assembly.getData_inputBuf_read,
      a.receive_read_of_frag packet hfrag]
    exact ⟨hpos, hcheck', hfrag, hcommand, htotal⟩
  · rw [a.receive_read_of_frag packet hfrag]
  · exact a.getSize_inputBuf_read packet

theorem copies_read_of_total_eq_zero (htotal : a.total = 0) : copies (a.read packet) = [] := by
  refine if_neg ?_
  rintro ⟨-, -, hfrag, -, hempty⟩
  rw [a.frag_read packet] at hfrag
  rw [a.receive_read_of_frag packet hfrag] at hempty
  exact hempty (by rwa [Assembly.total, if_pos hfrag] at htotal)

theorem loopCopies_of_stop {rest : List Data}
    (h : ∀ b, packetStep (a.read packet) ≠ .ok (b, false)) :
    loopCopies a (packet :: rest) = copies (a.read packet) := by
  rw [loopCopies]
  split
  · rename_i b hb
    exact absurd hb (h b)
  · simp

theorem loopCopies_of_go {b : Assembly} {rest : List Data}
    (h : packetStep (a.read packet) = .ok (b, false)) :
    loopCopies a (packet :: rest) = copies (a.read packet) ++ loopCopies b rest := by
  rw [loopCopies, h]

/-- A packet that passes the size check is dispatched as it was read. -/
theorem packetStep_read (hcheck : checkSize packet packetHeaderSize = .ok ()) :
    packetStep (a.read packet) = dispatch { a.read packet with blankCount := 0 } :=
  packetStep_of_checkSize (by rwa [checkSize_congr (a.getData_inputBuf_read packet)])

/-- The packet after which there are no more. -/
theorem packetStep_data (hcheck : checkSize packet packetHeaderSize = .ok ())
    (hcommand : commandField packet.getData = dbData) (b : Assembly) :
    packetStep (a.read packet) ≠ .ok (b, false) := by
  rw [packetStep_read hcheck, dispatch, a.commandField_read, hcommand, if_neg (by decide),
    if_pos rfl]
  split
  · split <;> simp
  · simp

/-- The first fragment, and one behind an empty one, is what `receive` is then. -/
theorem packetStep_first (hsound : a.Sound) (hcheck : checkSize packet packetHeaderSize = .ok ())
    (hcommand : commandField packet.getData = dbFragmented) (htotal : a.total = 0) :
    ∃ b, packetStep (a.read packet) = .ok (b, false) ∧ b.Sound ∧ b.total = packet.getSize ∧
      b.blankCount = 0 := by
  have hcommand' := (a.commandField_read packet 0).trans hcommand
  rw [packetStep_read hcheck]
  by_cases hfrag : a.frag = true
  · have hempty : a.receive.getSize = 0 := by rwa [Assembly.total, if_pos hfrag] at htotal
    rw [← a.receive_read_of_frag packet hfrag] at hempty
    obtain ⟨w, hw, hwsize⟩ := appendFragment_of_empty (a.read packet).inputBuf hempty
    have hfrag' : (a.read packet).frag = true := (a.frag_read packet).trans hfrag
    refine ⟨_, dispatch_later hcommand' hfrag' hw, ?_, ?_, rfl⟩
    · intro h
      rw [hfrag'] at h
      cases h
    · rw [Assembly.total, if_pos hfrag', hwsize, a.getSize_inputBuf_read packet]
  · have hfrag' : (a.read packet).frag = false := by simpa using hfrag
    have hnone : a.inFrag = none := hsound (by simpa using hfrag)
    refine ⟨_, dispatch_first hcommand' hfrag', ?_, ?_, rfl⟩
    · intro h
      cases h
    · have hbuf := a.getSize_inputBuf_read packet
      rw [Assembly.inputBuf, (a.kept_read packet 0).inFrag (by simpa using hfrag) hnone] at hbuf
      exact hbuf

/-- A later fragment that fits is joined to what is there, if an `int` has the size. -/
theorem packetStep_later (hcheck : checkSize packet packetHeaderSize = .ok ())
    (hcommand : commandField packet.getData = dbFragmented) (htotal : a.total ≠ 0)
    (happend : Appendable a.total packet.getSize) :
    (joined a.total packet.getSize < 2 ^ 31 ∧ ∃ b, packetStep (a.read packet) = .ok (b, false) ∧
      b.Sound ∧ b.total = joined a.total packet.getSize ∧ b.blankCount = 0) ∨
    (2 ^ 31 ≤ joined a.total packet.getSize ∧
      ∀ b, packetStep (a.read packet) ≠ .ok (b, false)) := by
  have hcommand' := (a.commandField_read packet 0).trans hcommand
  have hfrag : a.frag = true := by
    by_contra hfrag
    exact htotal (if_neg hfrag)
  have hfrag' : (a.read packet).frag = true := (a.frag_read packet).trans hfrag
  have hsize : a.total = (a.read packet).receive.getSize := by
    rw [Assembly.total, if_pos hfrag, a.receive_read_of_frag packet hfrag]
  rw [← a.getSize_inputBuf_read packet, hsize] at happend ⊢
  rw [hsize] at htotal
  rw [packetStep_read hcheck]
  rcases appendFragment_of_appendable htotal happend with ⟨hlt, w, hw, hwsize⟩ | ⟨hle, hrefused⟩
  · refine .inl ⟨hlt, _, dispatch_later hcommand' hfrag' hw, ?_, ?_, rfl⟩
    · intro h
      rw [hfrag'] at h
      cases h
    · rw [Assembly.total, if_pos hfrag', hwsize]
  · refine .inr ⟨hle, fun b => ?_⟩
    rw [dispatch_refused hcommand' hfrag' hrefused]
    simp

/-- Anything else but a handshake is the end. -/
theorem packetStep_other (hcheck : checkSize packet packetHeaderSize = .ok ())
    (hhandshake : commandField packet.getData ≠ sequenceHandshake)
    (hdata : commandField packet.getData ≠ dbData)
    (hfragmented : commandField packet.getData ≠ dbFragmented) (b : Assembly) :
    packetStep (a.read packet) ≠ .ok (b, false) := by
  rw [packetStep_read hcheck, dispatch, a.commandField_read, if_neg hhandshake, if_neg hdata,
    if_neg hfragmented]
  split <;> simp

theorem copies_read_of_command (hdata : commandField packet.getData ≠ dbData)
    (hfragmented : commandField packet.getData ≠ dbFragmented) : copies (a.read packet) = [] := by
  refine if_neg ?_
  rw [a.getData_inputBuf_read packet]
  rintro ⟨-, -, -, h | h, -⟩
  · exact hdata h
  · exact hfragmented h

end Turn

/-- The copies are good exactly if the packets fit. -/
theorem appendable_loopCopies_iff (packets : List Data) (a : Assembly) (hsound : a.Sound) :
    (∀ c ∈ loopCopies a packets, Appendable c.1.getSize c.2.getSize) ↔
      Fit a.total a.blankCount packets := by
  induction packets generalizing a with
  | nil => simp [loopCopies, Fit]
  | cons packet rest ih =>
    rw [Fit]
    split_ifs with hblank hcheck hhandshake hdata hfragmented htotal
    · have hnone : copies (a.read packet) = [] := if_neg fun h => by
        rw [a.getSize_inputBuf_read packet, hblank] at h
        exact absurd h.1 (by decide)
      by_cases hten : a.blankCount + 1 = 10
      · have hstop : ∀ b, packetStep (a.read packet) ≠ .ok (b, false) := fun b => by
          simp [packetStep, hblank, hten]
        rw [loopCopies_of_stop hstop, hnone]
        simp [hten]
      · have hgo : packetStep (a.read packet) =
            .ok ({ a.read packet with blankCount := a.blankCount + 1 }, false) := by
          simp [packetStep, hblank, hten]
        rw [loopCopies_of_go hgo, hnone, List.nil_append, ih _ (a.sound_read packet _ hsound),
          Assembly.total_read]
        simp [hten]
    · -- a packet that is not as long as it says is refused
      have hne : checkSize (a.read packet).inputBuf packetHeaderSize ≠ .ok () := by
        rwa [checkSize_congr (a.getData_inputBuf_read packet)]
      have hstop : ∀ b, packetStep (a.read packet) ≠ .ok (b, false) := fun b => by
        rcases herr : checkSize (a.read packet).inputBuf packetHeaderSize with e | ⟨⟩
        · simp [packetStep, Nat.pos_of_ne_zero hblank, herr]
        · exact absurd herr hne
      rw [loopCopies_of_stop hstop, copies, if_neg fun h => hne h.2.1]
      simp
    · have hcheck' := not_not.mp hcheck
      have hnone : copies (a.read packet) = [] :=
        copies_read_of_command (by rw [hhandshake]; decide) (by rw [hhandshake]; decide)
      have hgo := (packetStep_read (a := a) hcheck').trans
        (dispatch_handshake ((a.commandField_read packet 0).trans hhandshake))
      rw [loopCopies_of_go hgo, hnone, List.nil_append, ih _ (a.sound_read packet _ hsound),
        Assembly.total_read]
    · have hcheck' := not_not.mp hcheck
      rw [loopCopies_of_stop (packetStep_data hcheck' hdata)]
      by_cases htotal : a.total = 0
      · rw [copies_read_of_total_eq_zero htotal]
        simp [htotal]
      · obtain ⟨c, hc, hwhole, hfragment⟩ := copies_read_of_total hcheck' (.inl hdata) htotal
        rw [hc, List.forall_mem_singleton, hwhole, hfragment]
        simp [htotal]
    · obtain ⟨b, hgo, hb, hbtotal, hbblank⟩ :=
        packetStep_first hsound (not_not.mp hcheck) hfragmented htotal
      rw [loopCopies_of_go hgo, copies_read_of_total_eq_zero htotal, List.nil_append, ih b hb,
        hbtotal, hbblank]
    · have hcheck' := not_not.mp hcheck
      obtain ⟨c, hc, hwhole, hfragment⟩ := copies_read_of_total hcheck' (.inr hfragmented) htotal
      by_cases happend : Appendable a.total packet.getSize
      · rcases packetStep_later hcheck' hfragmented htotal happend with
          ⟨hlt, b, hgo, hb, hbtotal, hbblank⟩ | ⟨hle, hstop⟩
        · rw [loopCopies_of_go hgo, hc, List.singleton_append, List.forall_mem_cons, ih b hb,
            hwhole, hfragment, hbtotal, hbblank]
          exact and_congr_right fun _ => ⟨fun h _ => h, fun h => h hlt⟩
        · rw [loopCopies_of_stop hstop, hc, List.forall_mem_singleton, hwhole, hfragment]
          exact (and_iff_left fun hlt => absurd hlt (Nat.not_lt.mpr hle)).symm
      · refine iff_of_false (fun h => happend ?_) (fun h => happend h.1)
        rw [← hwhole, ← hfragment]
        refine h c ?_
        rw [loopCopies, hc]
        exact List.mem_append_left _ (List.mem_singleton_self c)
    · rw [loopCopies_of_stop (packetStep_other (not_not.mp hcheck) hhandshake hdata hfragmented),
        copies_read_of_command hdata hfragmented]
      simp

/-! ## `Packet` -/

/-- What `Packet` starts its loop with. -/
def assembly (receive : Data) : Assembly :=
  ⟨receive.zap, none, false, 0⟩

/-- `Packet` stays inside its buffers : it throws or returns, and every copy `AppendFragment`
makes is from inside the packet. -/
structure Safe (s : Socket) (send receive : Data) : Prop where
  noFault : ∀ what, s.packet send receive ≠ .error (.fault what)
  inPacket : ∀ s', s.dbFragSend send = .ok s' →
    ∀ c ∈ loopCopies (assembly receive) s'.incoming, InPacket c

/-- `Packet` is safe exactly if the packets that come after the answers to what it sent fit
behind one another. -/
theorem packet_safe_iff (s : Socket) (send receive : Data) : s.Safe send receive ↔
    ∀ s', s.dbFragSend send = .ok s' → Fit 0 0 s'.incoming := by
  rcases hsend : s.dbFragSend send with e | s'
  · refine iff_of_true ⟨fun what h => ?_, fun s' h => ?_⟩ fun s' h => ?_
    · rw [packet, hsend] at h
      exact dbFragSend_ne_fault s send what (hsend.trans (congrArg _ (Except.error.inj h)))
    · rw [hsend] at h
      cases h
    · cases h
  · have hfit : (∀ c ∈ loopCopies (assembly receive) s'.incoming,
        Appendable c.1.getSize c.2.getSize) ↔ Fit 0 0 s'.incoming :=
      appendable_loopCopies_iff s'.incoming (assembly receive) fun _ => rfl
    have hfault := packetLoop_fault_iff (assembly receive) s'.incoming
    have hpacket : ∀ what, s.packet send receive = .error (.fault what) ↔
        packetLoop (assembly receive) s'.incoming = .error (.fault what) := fun what => by
      simp only [packet, hsend, assembly]
      split
      · rename_i e he
        simp [he]
      · rename_i he
        simp [he]
    constructor
    · rintro ⟨hnoFault, -⟩ s'' h
      obtain rfl := Except.ok.inj h
      rw [← hfit]
      by_contra hbad
      push Not at hbad
      obtain ⟨what, hwhat⟩ := hfault.mpr hbad
      exact hnoFault what ((hpacket what).mpr hwhat)
    · intro hall
      have hgood := hfit.mpr (hall s' rfl)
      refine ⟨fun what h => ?_, fun s'' h c hc => ?_⟩
      · obtain ⟨c, hc, hbad⟩ := hfault.mp ⟨what, (hpacket what).mp h⟩
        exact hbad (hgood c hc)
      · rw [hsend] at h
        obtain rfl := Except.ok.inj h
        exact inPacket_of_appendable (hgood c hc)

/-- A first fragment, and a packet without a table command behind it. -/
def shortFragment : Socket where
  socket := 1
  sequence := Data.default
  incoming := [handshake, Data.ofBytes (frame 1 dbFragmented 0x4f [1, 2, 3, 4]),
    Data.ofBytes [1, 0, 5, 0, dbData]]
  written := []

theorem not_safe_shortFragment : ¬shortFragment.Safe (nextRecordCommand 0) Data.default :=
  fun h => h.noFault "SocketZero::AppendFragment" rfl

end Socket

end Barry
