import Barry.Data
import Barry.Lib.Transducer

/-!
# The PPP filter

`PppFilter` (`pppfilter.cc`) adds the 0x7e bytes a PPP stream lacks : a frame is to be opened by one
and closed by another. `m_last` is carried from one `Write` to the next, and is 0x7e between frames.
`Filter` asks the write buffer for `size / 2 * 3 + 4` bytes and the offset ; a byte put behind them
is a fault here.

A byte at a time, the loops are a transducer with two states (`filterLoop_eq`), so that it does not
matter how a stream is cut into writes, and what is put into the buffer is paid for by what is read
(`length_puts_le`). `ReleaseBuffer` takes an `int`, so that a write whose output has `2 ^ 31` bytes
throws.
-/

namespace Barry

namespace PppFilter

/-- The flag of a frame. -/
def flag : UInt8 := 0x7e

/-- What is put into the buffer : a byte of the source, or a flag that is missing. -/
inductive Put
  | copied (b : UInt8)
  | inserted
  deriving DecidableEq

namespace Put

/-- The byte in the buffer. -/
def byte : Put → UInt8
  | copied b => b
  | inserted => flag

/-- The byte of the source. -/
def source? : Put → Option UInt8
  | copied b => some b
  | inserted => none

end Put

/-- `*put++ = c`, inside the bytes that are reserved. -/
def put (reserved : ℕ) (out : List Put) (c : Put) : Except Error (List Put) :=
  if out.length < reserved then .ok (out ++ [c]) else .error (.fault "PppFilter::Filter")

/-- If the last character was 0x7e, the next one must be, or it is inserted. -/
def openFrame (reserved : ℕ) (last : UInt8) :
    Bytes → List Put → Except Error (UInt8 × Bytes × List Put)
  | [], out => .ok (last, [], out)
  | b :: bs, out =>
    if last = flag then
      if b ≠ flag then (put reserved out .inserted).map fun out => (0, b :: bs, out)
      else (put reserved out (.copied b)).map fun out => (0, bs, out)
    else .ok (last, b :: bs, out)

/-- Copies all other characters verbatim. -/
def copyRun (reserved : ℕ) : Bytes → List Put → Except Error (Bytes × List Put)
  | [], out => .ok ([], out)
  | b :: bs, out =>
    if b ≠ flag then
      match put reserved out (.copied b) with
      | .error e => .error e
      | .ok out => copyRun reserved bs out
    else .ok (b :: bs, out)

/-- Copies the 0x7e that the copying came to. -/
def closeFrame (reserved : ℕ) (last : UInt8) :
    Bytes → List Put → Except Error (UInt8 × Bytes × List Put)
  | [], out => .ok (last, [], out)
  | b :: bs, out => (put reserved out (.copied b)).map fun out => (flag, bs, out)

/-- A turn of the loop in `Filter`, behind its first `if`. -/
def finishTurn (reserved : ℕ) (last : UInt8) (src : Bytes) (out : List Put) :
    Except Error (UInt8 × Bytes × List Put) :=
  match copyRun reserved src out with
  | .error e => .error e
  | .ok (src, out) => closeFrame reserved last src out

/-- A turn of the loop in `Filter`. -/
def turn (reserved : ℕ) (last : UInt8) (src : Bytes) (out : List Put) :
    Except Error (UInt8 × Bytes × List Put) :=
  match openFrame reserved last src out with
  | .error e => .error e
  | .ok (last, src, out) => finishTurn reserved last src out

theorem copyRun_ok {reserved : ℕ} : ∀ {src src' : Bytes} {out out' : List Put},
    copyRun reserved src out = .ok (src', out') → src' = src.dropWhile (· ≠ flag)
  | [], _, _, _, h => by
    cases h
    rfl
  | b :: bs, src', out, out', h => by
    rw [copyRun] at h
    split at h
    · rename_i hb
      rw [List.dropWhile_cons_of_pos (by simpa using hb)]
      split at h
      · cases h
      · exact copyRun_ok h
    · rename_i hb
      cases h
      rw [List.dropWhile_cons_of_neg (by simpa using hb)]

theorem closeFrame_ok {reserved : ℕ} {last last' : UInt8} {src src' : Bytes} {out out' : List Put}
    (h : closeFrame reserved last src out = .ok (last', src', out')) : src' = src.tail := by
  cases src with
  | nil =>
    cases h
    rfl
  | cons b bs =>
    obtain ⟨_, -, he⟩ := map_eq_ok.mp h
    cases he
    rfl

theorem openFrame_ok {reserved : ℕ} {last last' : UInt8} {src src' : Bytes} {out out' : List Put}
    (h : openFrame reserved last src out = .ok (last', src', out')) :
    src' = src ∨ src' = src.tail := by
  cases src with
  | nil =>
    cases h
    exact .inl rfl
  | cons b bs =>
    rw [openFrame] at h
    split_ifs at h
    · obtain ⟨_, -, he⟩ := map_eq_ok.mp h
      cases he
      exact .inl rfl
    · obtain ⟨_, -, he⟩ := map_eq_ok.mp h
      cases he
      exact .inr rfl
    · cases h
      exact .inl rfl

/-- Every turn reads something. -/
theorem length_lt_of_turn {reserved : ℕ} {last last' : UInt8} {src src' : Bytes}
    {out out' : List Put}
    (hne : src ≠ []) (h : turn reserved last src out = .ok (last', src', out')) :
    src'.length < src.length := by
  have hpos := List.length_pos_of_ne_nil hne
  rw [turn] at h
  split at h
  · cases h
  · rename_i last₁ src₁ out₁ hopen
    rw [finishTurn] at h
    split at h
    · cases h
    · rename_i src₂ out₂ hcopy
      have hle := (List.dropWhile_sublist (fun b => decide (b ≠ flag)) (l := src₁)).length_le
      rw [closeFrame_ok h, copyRun_ok hcopy, List.length_tail]
      rcases openFrame_ok hopen with rfl | rfl
      · omega
      · rw [List.length_tail] at hle
        omega

/-- The loop in `Filter` : `m_last`, and what was put into the buffer. -/
def filterLoop (reserved : ℕ) (last : UInt8) (src : Bytes) (out : List Put) :
    Except Error (UInt8 × List Put) :=
  if _hne : src = [] then .ok (last, out)
  else
    match _hturn : turn reserved last src out with
    | .error e => .error e
    | .ok (last, src, out) => filterLoop reserved last src out
termination_by src.length
decreasing_by exact length_lt_of_turn _hne _hturn

end PppFilter

/-- `PppFilter`. Before there is PPP data, `m_last` is as it was made. -/
structure PppFilter where
  writeBuf : Data
  pppMode : Bool
  last : UInt8
  idle : pppMode = false → last = PppFilter.flag

namespace PppFilter

/-- `PppFilter()`. -/
def new : PppFilter := ⟨Data.default, false, flag, fun _ => rfl⟩

/-- What `Filter` reserves for a source, without the offset. -/
def reserved (src : Bytes) : ℕ :=
  src.length / 2 * 3 + 4

/-- `Filter`, with `m_last`. -/
def filter (last : UInt8) (dest : Data) (src : Bytes) (destoffset : ℕ) :
    Except Error (UInt8 × Data) :=
  match filterLoop (reserved src) last src [] with
  | .error e => .error e
  | .ok (last, out) =>
    (((dest.getBuffer (reserved src + destoffset)).write destoffset
      (out.map Put.byte)).releaseBuffer
      (toInt (out.length + destoffset : ℕ))).map (last, ·)

/-- `Filter` to the write buffer, in PPP mode. -/
def filterWrite (s : PppFilter) (data : Data) (destoffset : ℕ) : Except Error (PppFilter × Data) :=
  (filter s.last s.writeBuf data.getData destoffset).map fun (last, buf) =>
    (⟨buf, true, last, fun h => by cases h⟩, buf)

/-- PPP mode is on, or is detected now. -/
def detects (s : PppFilter) (data : Data) : Bool :=
  s.pppMode || data.getData.head? = some flag

/-- `Write(data)`. -/
def write (s : PppFilter) (data : Data) : Except Error (PppFilter × Data) :=
  if data.getSize = 0 then .ok (s, data)
  else if s.detects data then s.filterWrite data 0
  else .ok (s, data)

/-- `Write(data, prepend)`. -/
def writePrepend (s : PppFilter) (data : Data) (prepend : UInt32) :
    Except Error (PppFilter × Data) :=
  if s.detects data then s.filterWrite data prepend.toNat
  else
    let size := toUInt (data.getSize + prepend.toNat)
    let buf := s.writeBuf.getBuffer size
    -- the sum of the sizes may wrap around
    if buf.getBufSize < prepend.toNat + data.getSize then .error (.fault "PppFilter::Write")
    else ((buf.write prepend.toNat data.getData).releaseBuffer (toInt size)).map fun buf =>
      ({ s with writeBuf := buf }, buf)

/-! ## A byte at a time -/

/-- The filter as a transducer. In the first of its states, the next byte opens a frame. -/
def machine : Transducer Bool UInt8 Put where
  output closed b := if closed ∧ b ≠ flag then [.inserted, .copied b] else [.copied b]
  next closed b := !closed && b = flag

/-- What is put into the buffer for a source. -/
def puts (closed : Bool) (src : Bytes) : List Put :=
  machine.run closed src

/-- Between frames, behind a source. -/
def closedAfter (closed : Bool) (src : Bytes) : Bool :=
  machine.after closed src

theorem puts_append (closed : Bool) (src src' : Bytes) :
    puts closed (src ++ src') = puts closed src ++ puts (closedAfter closed src) src' :=
  Transducer.run_append src src'

/-- What is read pays for what is put into the buffer. -/
theorem length_puts_le (closed : Bool) (src : Bytes) : (puts closed src).length ≤ reserved src := by
  have hstep : ∀ (closed : Bool) (b : UInt8), 2 * (machine.output closed b).length +
      (machine.next closed b).toNat ≤ 3 + closed.toNat := by
    intro closed b
    by_cases hb : b = flag
    · cases closed <;> simp [machine, hb]
    · cases closed <;> simp [machine, hb]
  have hrun := Transducer.length_run_le hstep src (s := closed)
  have hclosed := Bool.toNat_le closed
  unfold puts reserved
  omega

section Loop

variable {room : ℕ} {last : UInt8} {src : Bytes} {out : List Put}

theorem put_of_lt (h : out.length < room) (c : Put) : put room out c = .ok (out ++ [c]) :=
  if_pos h

theorem puts_open (b : UInt8) (bs : Bytes) :
    puts false (b :: bs) = .copied b :: puts (decide (b = flag)) bs := by
  simp [puts, Transducer.run_cons, machine]

theorem puts_closed (b : UInt8) (bs : Bytes) : puts true (b :: bs) =
    if b = flag then .copied b :: puts false bs else .inserted :: puts false (b :: bs) := by
  split <;> rename_i hb <;> simp [puts, Transducer.run_cons, machine, hb]

/-- The end of a turn inside a frame : up to the byte that closes it,
or to the end of the source. -/
theorem finishTurn_eq (room : ℕ) (hlast : last ≠ flag) : ∀ (src : Bytes) (out : List Put),
    out.length + (puts false src).length ≤ room →
      ∃ last' done rest, src = done ++ rest ∧ (done = [] → src = []) ∧
        finishTurn room last src out = .ok (last', rest, out ++ puts false done) ∧
        decide (last' = flag) = closedAfter false done
  | [], out, _ => by
    refine ⟨last, [], [], rfl, fun _ => rfl, ?_, decide_eq_false hlast⟩
    rw [puts, Transducer.run_nil, List.append_nil]
    rfl
  | b :: bs, out, hfit => by
    rw [puts_open, List.length_cons] at hfit
    by_cases hflag : b = flag
    · refine ⟨flag, [b], bs, rfl, (absurd · (List.cons_ne_nil _ _)), ?_, ?_⟩
      · rw [finishTurn, copyRun, if_neg (not_not_intro hflag)]
        dsimp only
        rw [closeFrame, put_of_lt (by omega), puts_open, decide_eq_true hflag]
        rfl
      · simp [closedAfter, machine, hflag]
    · rw [decide_eq_false hflag] at hfit
      obtain ⟨last', done, rest, hsrc, -, hrun, hclosed⟩ :=
        finishTurn_eq room hlast bs (out ++ [.copied b])
          (by rw [List.length_append, List.length_singleton]; omega)
      refine ⟨last', b :: done, rest, by rw [hsrc, List.cons_append],
        (absurd · (List.cons_ne_nil _ _)), ?_, ?_⟩
      · rw [finishTurn, copyRun, if_pos hflag, put_of_lt (by omega)]
        refine hrun.trans ?_
        rw [puts_open, decide_eq_false hflag, List.append_assoc, List.singleton_append]
      · rw [hclosed]
        simp [closedAfter, machine, hflag]

/-- A turn filters what it reads. -/
theorem turn_eq (hne : src ≠ []) (hfit : out.length + (puts (last = flag) src).length ≤ room) :
    ∃ last' done rest, src = done ++ rest ∧
      turn room last src out = .ok (last', rest, out ++ puts (last = flag) done) ∧
      decide (last' = flag) = closedAfter (last = flag) done := by
  obtain ⟨b, bs, rfl⟩ := List.exists_cons_of_ne_nil hne
  have hzero : (0 : UInt8) ≠ flag := by decide
  by_cases hlast : last = flag
  · rw [decide_eq_true hlast, puts_closed] at hfit
    rw [decide_eq_true hlast]
    by_cases hb : b = flag
    · rw [if_pos hb, List.length_cons] at hfit
      obtain ⟨last', done, rest, hsrc, -, hfinish, hclosed⟩ :=
        finishTurn_eq room hzero bs (out ++ [.copied b])
          (by rw [List.length_append, List.length_singleton]; omega)
      refine ⟨last', b :: done, rest, by rw [hsrc, List.cons_append], ?_, ?_⟩
      · rw [turn, openFrame, if_pos hlast, if_neg (not_not_intro hb), put_of_lt (by omega)]
        refine hfinish.trans ?_
        rw [puts_closed, if_pos hb, List.append_assoc, List.singleton_append]
      · rw [hclosed]
        simp [closedAfter, machine, hb]
    · rw [if_neg hb, List.length_cons] at hfit
      obtain ⟨last', done, rest, hsrc, hdone, hfinish, hclosed⟩ :=
        finishTurn_eq room hzero (b :: bs) (out ++ [.inserted])
          (by rw [List.length_append, List.length_singleton]; omega)
      obtain ⟨c, done, rfl⟩ := List.exists_cons_of_ne_nil fun h => List.cons_ne_nil _ _ (hdone h)
      obtain ⟨rfl, -⟩ := List.cons.inj hsrc
      refine ⟨last', b :: done, rest, hsrc, ?_, ?_⟩
      · rw [turn, openFrame, if_pos hlast, if_pos hb, put_of_lt (by omega)]
        refine hfinish.trans ?_
        rw [puts_closed, if_neg hb, List.append_assoc, List.singleton_append]
      · rw [hclosed]
        simp [closedAfter, machine, hb]
  · rw [decide_eq_false hlast] at hfit ⊢
    obtain ⟨last', done, rest, hsrc, -, hfinish, hclosed⟩ := finishTurn_eq room hlast _ out hfit
    refine ⟨last', done, rest, hsrc, ?_, hclosed⟩
    rw [turn, openFrame, if_neg hlast]
    exact hfinish

/-- With room for it, the loop is the transducer. -/
theorem filterLoop_eq (hfit : out.length + (puts (last = flag) src).length ≤ room) :
    ∃ last', filterLoop room last src out = .ok (last', out ++ puts (last = flag) src) ∧
      decide (last' = flag) = closedAfter (last = flag) src := by
  induction hn : src.length using Nat.strong_induction_on generalizing last src out with
  | _ n ih =>
    by_cases hne : src = []
    · subst hne
      refine ⟨last, ?_, rfl⟩
      rw [filterLoop, dif_pos rfl, puts, Transducer.run_nil, List.append_nil]
    · obtain ⟨last₁, done, rest, hsrc, hturn, hclosed⟩ := turn_eq hne hfit
      have hlt := length_lt_of_turn hne hturn
      have hsplit : puts (last = flag) src =
          puts (last = flag) done ++ puts (last₁ = flag) rest := by
        rw [hsrc, puts_append, ← hclosed]
      obtain ⟨last', hloop, hafter⟩ := @ih rest.length (hn ▸ hlt) last₁ rest
        (out ++ puts (last = flag) done)
        (by rw [hsplit, List.length_append] at hfit; rw [List.length_append]; omega) rfl
      refine ⟨last', ?_, ?_⟩
      · rw [filterLoop, dif_neg hne]
        split
        · rename_i h
          rw [hturn] at h
          cases h
        · rename_i h
          rw [hturn] at h
          cases h
          rw [hloop, hsplit, List.append_assoc]
      · rw [hafter, hclosed, hsrc, closedAfter, closedAfter, closedAfter, Transducer.after_append]

/-- What is reserved for a source is enough. -/
theorem filterLoop_reserved (last : UInt8) (src : Bytes) :
    ∃ last', filterLoop (reserved src) last src [] = .ok (last', puts (last = flag) src) ∧
      decide (last' = flag) = closedAfter (last = flag) src := by
  have hle : ([] : List Put).length + (puts (last = flag) src).length ≤ reserved src := by
    simpa using length_puts_le (last = flag) src
  exact filterLoop_eq hle

end Loop

/-! ## Frames -/

/-- The frames of a stream, empty ones too : its longest runs of other bytes than 0x7e. -/
def frames (stream : Bytes) : List Bytes :=
  stream.splitOnP (· = flag)

/-- A frame between two flags of its own. -/
def enclose (frame : Bytes) : Bytes :=
  flag :: frame ++ [flag]

/-- The last frame of a stream is closed. -/
def Finished (stream : Bytes) : Prop :=
  stream = [] ∨ stream.getLast? = some flag

/-- A row of enclosed frames, with the given ones that are not empty, and at most one flag behind it
that waits for its frame. -/
def Row (given : List Bytes) (out : Bytes) : Prop :=
  ∃ (fs : List Bytes) (tail : Bytes), (∀ f ∈ fs, flag ∉ f) ∧
    fs.filter (· ≠ []) = given.filter (· ≠ []) ∧ (tail = [] ∨ tail = [flag]) ∧
      out = fs.flatMap enclose ++ tail

/-- The bytes in the buffer for a source. -/
def bytes (closed : Bool) (src : Bytes) : Bytes :=
  (puts closed src).map Put.byte

theorem bytes_append (closed : Bool) (src src' : Bytes) :
    bytes closed (src ++ src') = bytes closed src ++ bytes (closedAfter closed src) src' := by
  rw [bytes, puts_append, List.map_append]
  rfl

theorem bytes_open (b : UInt8) (bs : Bytes) :
    bytes false (b :: bs) = b :: bytes (decide (b = flag)) bs := by
  rw [bytes, puts_open]
  rfl

theorem bytes_closed (b : UInt8) (bs : Bytes) : bytes true (b :: bs) =
    flag :: if b = flag then bytes false bs else bytes false (b :: bs) := by
  rw [bytes, puts_closed]
  split
  · rename_i hb
    rw [hb]
    rfl
  · rfl

theorem Row.cons {given : List Bytes} {f out : Bytes} (hf : flag ∉ f) (h : Row given out) :
    Row (f :: given) (enclose f ++ out) := by
  obtain ⟨fs, tail, hfs, hfilter, htail, rfl⟩ := h
  refine ⟨f :: fs, tail, List.forall_mem_cons.mpr ⟨hf, hfs⟩, ?_, htail, ?_⟩
  · rw [List.filter_cons, List.filter_cons, hfilter]
  · rw [List.flatMap_cons, List.append_assoc]

/-- Inside a frame, its rest comes first, and its flag. -/
def RowInside (stream : Bytes) : Prop :=
  ∃ f rest out, frames stream = f :: rest ∧ flag ∉ f ∧ Row rest out ∧
    bytes false stream = f ++ flag :: out

/-- Between frames, a frame is opened. -/
theorem row_of_inside {b : UInt8} {bs : Bytes} (hfirst : b ≠ flag → RowInside (b :: bs))
    (hrest : bs ≠ [] → RowInside bs) :
    Row (frames (b :: bs)) (bytes true (b :: bs)) := by
  rw [bytes_closed]
  by_cases hb : b = flag
  · rw [if_pos hb, frames, List.splitOnP_cons_eq_if_modifyHead,
      if_pos (decide_eq_true hb), ← frames]
    rcases eq_or_ne bs [] with rfl | hne
    · exact ⟨[], [flag], List.forall_mem_nil _, rfl, .inr rfl, rfl⟩
    · obtain ⟨f, rest, out, hsplit, hf, hrow, hbytes⟩ := hrest hne
      obtain ⟨fs, tail, hfs, hfilter, htail, hout⟩ := hrow.cons hf
      rw [hbytes, hsplit]
      exact ⟨fs, tail, hfs, hfilter, htail, by rw [← hout]; simp [enclose]⟩
  · obtain ⟨f, rest, out, hsplit, hf, hrow, hbytes⟩ := hfirst hb
    rw [if_neg hb, hbytes, hsplit]
    simpa [enclose] using hrow.cons hf

theorem finished_tail {b : UInt8} {bs : Bytes} (hb : b = flag ∨ bs ≠ []) (h : Finished (b :: bs)) :
    Finished bs := by
  cases bs with
  | nil => exact .inl rfl
  | cons c bs => exact .inr ((List.getLast?_cons_cons ▸ h.resolve_left (List.cons_ne_nil _ _)))

/-- The frames of a finished stream are enclosed. -/
theorem row_bytes : ∀ {stream : Bytes}, Finished stream →
    (stream ≠ [] → RowInside stream) ∧ Row (frames stream) (bytes true stream)
  | [], _ => ⟨fun hne => (hne rfl).elim, [], [], List.forall_mem_nil _, rfl, .inl rfl, rfl⟩
  | b :: bs, hfin => by
    have hne : b = flag ∨ bs ≠ [] := by
      rcases eq_or_ne bs [] with rfl | hne
      · exact .inl (by simpa using hfin.resolve_left (List.cons_ne_nil _ _))
      · exact .inr hne
    obtain ⟨hinside, hrow⟩ := row_bytes (finished_tail hne hfin)
    have hfirst : RowInside (b :: bs) := by
      rw [RowInside, bytes_open, frames, List.splitOnP_cons_eq_if_modifyHead, ← frames]
      by_cases hb : b = flag
      · rw [if_pos (decide_eq_true hb), decide_eq_true hb, hb]
        exact ⟨[], _, _, rfl, List.not_mem_nil, hrow, rfl⟩
      · obtain ⟨f, rest, out, hsplit, hf, hrow, hbytes⟩ := hinside (hne.resolve_left hb)
        rw [if_neg (by simpa using hb), decide_eq_false hb, hsplit, hbytes]
        exact ⟨b :: f, rest, out, rfl,
          List.not_mem_cons_of_ne_of_not_mem (Ne.symm hb) hf, hrow, rfl⟩
    exact ⟨fun _ => hfirst, row_of_inside (fun _ => hfirst) hinside⟩

/-! ## Writes -/

/-- A call of `Write`, without or with bytes to be prepended. -/
inductive Call
  | write (data : Data)
  | writePrepend (data : Data) (prepend : UInt32)

namespace Call

/-- What is written. -/
def bytes : Call → Bytes
  | write data => data.getData
  | writePrepend data _ => data.getData

/-- Bytes to be prepended. -/
def prepend : Call → ℕ
  | write _ => 0
  | writePrepend _ prepend => prepend.toNat

end Call

/-- A call, and the data it returns. -/
def call (s : PppFilter) : Call → Except Error (PppFilter × Data)
  | .write data => s.write data
  | .writePrepend data prepend => s.writePrepend data prepend

/-- Calls, and what each of them returns behind the prepended bytes. -/
def calls : PppFilter → List Call → Except Error (PppFilter × List Bytes)
  | s, [] => .ok (s, [])
  | s, c :: cs => do
    let (s, out) ← s.call c
    let (s, outs) ← s.calls cs
    return (s, out.getData.drop c.prepend :: outs)

/-- The stream that is cut into calls. -/
def streamOf (cs : List Call) : Bytes :=
  cs.flatMap Call.bytes

/-- PPP mode is on, or the first call turns it on. -/
def On (s : PppFilter) (cs : List Call) : Prop :=
  s.pppMode = true ∨ ∃ c ∈ cs.head?, c.bytes.head? = some flag

/-- What each call returns has a size that fits an `int`. -/
def Fits : Bool → List Call → Prop
  | _, [] => True
  | closed, c :: cs => (puts closed c.bytes).length + c.prepend < 2 ^ 31 ∧
      Fits (closedAfter closed c.bytes) cs

/-- The outputs are that of the whole stream at once, which has flags inserted and nothing else, and
encloses the frames of a finished stream. -/
def Chunked (s : PppFilter) (cs : List Call) : Prop :=
  ∃ s' outs last out, s.calls cs = .ok (s', outs) ∧
    filterLoop (reserved (streamOf cs)) s.last (streamOf cs) [] = .ok (last, out) ∧
    outs.flatten = out.map Put.byte ∧ out.filterMap Put.source? = streamOf cs ∧
    (s.last = flag → Finished (streamOf cs) → Row (frames (streamOf cs)) outs.flatten)

section Writes

variable {s : PppFilter} {data dest : Data} {last : UInt8} {src : Bytes} {n : ℕ}

theorem filter_eq (hfit : (puts (last = flag) src).length + n < 2 ^ 31) :
    ∃ last' dest', filter last dest src n = .ok (last', dest') ∧
      dest'.getData.drop n = bytes (last = flag) src ∧
      decide (last' = flag) = closedAfter (last = flag) src := by
  have hle := length_puts_le (last = flag) src
  have hlen : (bytes (last = flag) src).length = (puts (last = flag) src).length :=
    List.length_map _
  obtain ⟨last', hloop, hclosed⟩ := filterLoop_reserved last src
  obtain ⟨dest', hrelease, hdata⟩ := @Data.releaseBuffer_write dest (reserved src + n) n
    (bytes (last = flag) src) (by omega)
  have hsize : toInt ((puts (last = flag) src).length + n : ℕ) =
      (n + (bytes (last = flag) src).length : ℕ) := by
    rw [toInt_of_lt hfit, hlen, Nat.add_comm]
  refine ⟨last', dest', ?_, ?_, hclosed⟩
  · simp only [filter, hloop]
    rw [hsize, ← bytes, hrelease]
    rfl
  · have hbuf := Data.le_getBufSize_getBuffer (d := dest) (n := reserved src + n)
    rw [hdata, List.drop_left']
    rw [List.length_take, Data.length_buffer Data.external_getBuffer]
    omega

theorem filterWrite_eq (hfit : (puts (s.last = flag) data.getData).length + n < 2 ^ 31) :
    ∃ s' out, s.filterWrite data n = .ok (s', out) ∧ s'.pppMode = true ∧
      out.getData.drop n = bytes (s.last = flag) data.getData ∧
      decide (s'.last = flag) = closedAfter (s.last = flag) data.getData := by
  obtain ⟨last', dest', hfilter, hdata, hclosed⟩ := @filter_eq s.writeBuf _ _ _ hfit
  refine ⟨⟨dest', true, last', fun h => by cases h⟩, dest', ?_, rfl, hdata, hclosed⟩
  rw [filterWrite, hfilter]
  rfl

/-- A call in PPP mode filters what is written. -/
theorem call_eq {c : Call} (hne : c.bytes ≠ [])
    (hon : s.pppMode = true ∨ c.bytes.head? = some flag)
    (hfit : (puts (s.last = flag) c.bytes).length + c.prepend < 2 ^ 31) :
    ∃ s' out, s.call c = .ok (s', out) ∧ s'.pppMode = true ∧
      out.getData.drop c.prepend = bytes (s.last = flag) c.bytes ∧
      decide (s'.last = flag) = closedAfter (s.last = flag) c.bytes := by
  cases c with
  | write data =>
    obtain ⟨s', out, hwrite, hs'⟩ := filterWrite_eq (n := 0) hfit
    have hdetects : s.detects data = true := by simpa [detects, Call.bytes] using hon
    have hsize : data.getSize ≠ 0 := fun h =>
      hne (List.eq_nil_of_length_eq_zero ((Data.length_getData data).trans h))
    refine ⟨s', out, ?_, hs'⟩
    rw [call, write, if_neg hsize, if_pos hdetects]
    exact hwrite
  | writePrepend data prepend =>
    obtain ⟨s', out, hwrite, hs'⟩ := filterWrite_eq (n := prepend.toNat) hfit
    have hdetects : s.detects data = true := by simpa [detects, Call.bytes] using hon
    refine ⟨s', out, ?_, hs'⟩
    rw [call, writePrepend, if_pos hdetects]
    exact hwrite

/-- Calls in PPP mode filter the pieces of the stream. -/
theorem calls_eq : ∀ {cs : List Call} {s : PppFilter}, (∀ c ∈ cs, c.bytes ≠ []) → s.On cs →
    Fits (s.last = flag) cs → ∃ s' outs, s.calls cs = .ok (s', outs) ∧
      outs.flatten = bytes (s.last = flag) (streamOf cs)
  | [], s, _, _, _ => ⟨s, [], rfl, rfl⟩
  | c :: cs, s, hne, hon, hfit => by
    obtain ⟨hc, hcs⟩ := List.forall_mem_cons.mp hne
    obtain ⟨s₁, out, hcall, hmode, hout, hclosed⟩ := call_eq hc (by simpa [On] using hon) hfit.1
    obtain ⟨s', outs, hcalls, houts⟩ := calls_eq hcs (.inl hmode) (hclosed ▸ hfit.2)
    refine ⟨s', out.getData.drop c.prepend :: outs, ?_, ?_⟩
    · rw [calls, hcall]
      change (s₁.calls cs >>= fun p => pure (p.1, out.getData.drop c.prepend :: p.2)) = _
      rw [hcalls]
      rfl
    · rw [List.flatten_cons, hout, houts, hclosed, ← bytes_append]
      rfl

/-- Only flags are inserted. -/
theorem filterMap_puts :
    ∀ (closed : Bool) (src : Bytes), (puts closed src).filterMap Put.source? = src
  | _, [] => rfl
  | closed, b :: bs => by
    have ih := filterMap_puts (machine.next closed b) bs
    rw [puts, Transducer.run_cons, List.filterMap_append, ← puts, ih]
    by_cases h : closed ∧ b ≠ flag <;>
      simp [machine, h, List.filterMap_cons, Put.source?]

/-- Writes in PPP mode put out what the filter makes of the whole stream, and stay inside of what is
reserved, if each output fits an `int`. -/
theorem chunked_of_fits {cs : List Call} (hne : ∀ c ∈ cs, c.bytes ≠ []) (hon : s.On cs)
    (hfit : Fits (s.last = flag) cs) : s.Chunked cs := by
  obtain ⟨s', outs, hcalls, houts⟩ := calls_eq hne hon hfit
  obtain ⟨last, hloop, -⟩ := filterLoop_reserved s.last (streamOf cs)
  refine ⟨s', outs, last, _, hcalls, hloop, houts, filterMap_puts _ _, fun hlast hfin => ?_⟩
  rw [houts, decide_eq_true hlast]
  exact (row_bytes hfin).2

/-- A filter that has seen nothing, and a frame in two writes. -/
theorem chunked_of_fits_frame : new.Chunked
    [.write (.ofBytes [0x7e, 1]), .writePrepend (.ofBytes [2, 0x7e, 3, 0x7e]) 4] := by
  refine chunked_of_fits ?_ (.inr ⟨_, rfl, rfl⟩) ?_
  · simp [Call.bytes]
  · simp [Fits, puts, Transducer.run, machine, closedAfter, Call.bytes, Call.prepend, flag, new]

/-- Flags alone are copied. -/
theorem length_puts_flags (n : ℕ) : ∀ closed, (puts closed (List.replicate n flag)).length = n := by
  induction n with
  | zero => exact fun _ => rfl
  | succ n ih =>
    intro closed
    rw [List.replicate_succ, puts, Transducer.run_cons, List.length_append, ← puts, ih]
    simp [machine, Nat.add_comm]

/-- `ReleaseBuffer` refuses an output of `2 ^ 31` bytes : its `int` is negative. -/
theorem filter_eq_error (hlen : (puts (last = flag) src).length = 2 ^ 31) :
    filter last dest src 0 =
      .error (.logicError "Data::ReleaseBuffer() argument must be -1 or >= 0") := by
  obtain ⟨last', hloop, -⟩ := filterLoop_reserved last src
  have hsize : toInt ((puts (last = flag) src).length + 0 : ℕ) = -2 ^ 31 := by
    rw [hlen, toInt_neg (by omega) (by omega)]
    omega
  simp only [filter, hloop]
  rw [hsize, Data.releaseBuffer_neg (by omega) (by omega)]
  rfl

/-- A first write whose output is too long, and starts with a flag. -/
theorem not_chunked_of_length (hhead : src.head? = some flag)
    (hlen : (puts true src).length = 2 ^ 31) :
    new.On [.write (.ofBytes src)] ∧ ¬new.Chunked [.write (.ofBytes src)] := by
  have hdata : (Data.ofBytes src).getData.head? = some flag := by
    rw [Data.getData_ofBytes, hhead]
  refine ⟨.inr ⟨_, rfl, hdata⟩, ?_⟩
  rintro ⟨s', outs, last, out, hcalls, -⟩
  obtain ⟨p, hwrite, -⟩ := bind_eq_ok.mp hcalls
  have hsize : (Data.ofBytes src).getSize ≠ 0 := by
    rintro h
    rw [List.eq_nil_of_length_eq_zero h] at hhead
    cases hhead
  have hdetects : new.detects (.ofBytes src) = true := decide_eq_true hdata
  rw [call, write, if_neg hsize, if_pos hdetects, filterWrite, Data.getData_ofBytes,
    @filter_eq_error _ new.last _ hlen] at hwrite
  cases hwrite

/-- A write of `2 ^ 31` flags. -/
theorem not_chunked_flags : new.On [.write (.ofBytes (List.replicate (2 ^ 31) flag))] ∧
    ¬new.Chunked [.write (.ofBytes (List.replicate (2 ^ 31) flag))] :=
  not_chunked_of_length (List.head?_replicate.trans (if_neg (by omega))) (length_puts_flags _ _)

end Writes

end PppFilter

end Barry
