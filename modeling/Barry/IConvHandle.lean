import Barry.Lib.Text
import Barry.Room

/-!
# Converting with `iconv`

`IConvHandle::Convert` (`iconv.cc`) lets `iconv` write into the buffer of a `Data` object that is
kept from call to call. It asks for two bytes for each byte of the string, and where these are too
few, two more for each byte that was left unconverted, but only twice. What else the buffer has
behind it is up to `Data::MakeSpace`. `convert_iff` : a string that `iconv` can convert is converted
exactly if the result fits one of the three buffers.
-/

namespace Barry

/-- What `iconv` returns, with `errno`. -/
inductive IconvStatus
  | success
  /-- `E2BIG`. -/
  | tooBig
  | failed
  deriving DecidableEq

/-- A call of `iconv` : what is left of the input, and what was written. -/
structure IconvResult where
  status : IconvStatus
  inbytesleft : ℕ
  out : Bytes

/-- `iconv` of a handle, from its initial state, for an input and the size of the output buffer. -/
abbrev Iconv := Bytes → ℕ → IconvResult

namespace IConvHandle

/-- Where `iconv` failed. The text is that without the number and the text of `errno`. -/
def convertError (throwOnConvErr : Bool) (tmp : Data) (str : Bytes) : Except Error (Data × Bytes) :=
  if throwOnConvErr then .error (.error ("iconv failed with string '" ++ messageText str ++ "'"))
  else .ok (tmp, str)

/-- The loop in `Convert`, with the tries that are left after this one. -/
def tryConvert (iconv : Iconv) (throwOnConvErr : Bool) (str : Bytes) (retries : ℕ) (tmp : Data)
    (target : ℕ) : Except Error (Data × Bytes) :=
  let buffer := tmp.getBuffer target
  let r := iconv str buffer.getBufSize
  let tmp := buffer.write 0 r.out
  match r.status with
  | .success => .ok (tmp, tmp.buffer.take r.out.length)
  | .tooBig =>
    match retries with
    | 0 => convertError throwOnConvErr tmp str
    | retries + 1 =>
      tryConvert iconv throwOnConvErr str retries tmp (target + r.inbytesleft * 2)
  | .failed => convertError throwOnConvErr tmp str

/-- `Convert`, with the `tmp` it leaves. -/
def convert (iconv : Iconv) (throwOnConvErr : Bool) (tmp : Data) (str : Bytes) :
    Except Error (Data × Bytes) :=
  tryConvert iconv throwOnConvErr str 2 tmp (str.length * 2)

/-! ## What `iconv` does -/

/-- An input in parts that are converted as a whole, each with its output. -/
abbrev Units := List (Bytes × Bytes)

/-- The input of a conversion. -/
def input (units : Units) : Bytes :=
  units.flatMap Prod.fst

/-- The whole output of a conversion. -/
def output (units : Units) : Bytes :=
  units.flatMap Prod.snd

/-- A conversion into a buffer, which stops before the first unit that does not fit. -/
def fill : ℕ → Units → IconvResult
  | _, [] => ⟨.success, 0, []⟩
  | room, (i, o) :: units =>
    if o.length ≤ room then
      let r := fill (room - o.length) units
      { r with out := o ++ r.out }
    else ⟨.tooBig, (input ((i, o) :: units)).length, []⟩

/-- `iconv` can convert a string completely, and does so as far as there is room for it. -/
structure Converts (iconv : Iconv) (str : Bytes) (units : Units) : Prop where
  input_eq : input units = str
  fill_eq : ∀ room, iconv str room = fill room units

section Fill

variable {units : Units} {room : ℕ}

theorem fill_of_le : ∀ {units : Units} {room : ℕ}, (output units).length ≤ room →
    fill room units = ⟨.success, 0, output units⟩
  | [], _, _ => rfl
  | (i, o) :: units, room, h => by
    have hlen : (output ((i, o) :: units)).length = o.length + (output units).length := by
      rw [output, List.flatMap_cons, List.length_append, ← output]
    rw [fill, if_pos (by omega), fill_of_le (by omega)]
    rfl

theorem status_of_lt : ∀ {units : Units} {room : ℕ}, room < (output units).length →
    (fill room units).status = .tooBig
  | [], _, h => absurd h (Nat.not_lt_zero _)
  | (i, o) :: units, room, h => by
    have hlen : (output ((i, o) :: units)).length = o.length + (output units).length := by
      rw [output, List.flatMap_cons, List.length_append, ← output]
    rw [fill]
    split
    · exact status_of_lt (by omega)
    · rfl

end Fill

/-- What is left of the input if the buffer has this size. -/
def unconverted (room : ℕ) (units : Units) : ℕ :=
  (fill room units).inbytesleft

/-- The sizes of the buffers of the tries. -/
def rooms (units : Units) : ℕ → Data → ℕ → List ℕ
  | 0, tmp, target => [(tmp.getBuffer target).getBufSize]
  | retries + 1, tmp, target =>
    let buffer := tmp.getBuffer target
    buffer.getBufSize ::
      rooms units retries buffer (target + unconverted buffer.getBufSize units * 2)

/-- The output fits the buffer of one of the three tries. -/
def Fits (tmp : Data) (units : Units) : Prop :=
  ∃ room ∈ rooms units 2 tmp ((input units).length * 2), (output units).length ≤ room

section Convert

variable {iconv : Iconv} {throwOnConvErr : Bool} {str : Bytes} {units : Units} {retries target : ℕ}
  {tmp tmp' : Data}

theorem tryConvert_of_le (h : Converts iconv str units)
    (hfit : (output units).length ≤ (tmp.getBuffer target).getBufSize) :
    ∃ tmp', tryConvert iconv throwOnConvErr str retries tmp target = .ok (tmp', output units) := by
  refine ⟨(tmp.getBuffer target).write 0 (output units), ?_⟩
  have hbuf := Data.length_buffer (Data.external_getBuffer (d := tmp) (n := target))
  have htake := @take_splice_add _ (tmp.getBuffer target).buffer 0 (output units) (by omega)
  rw [Nat.zero_add, List.take_zero, List.nil_append] at htake
  unfold tryConvert
  simp only [h.fill_eq, fill_of_le hfit]
  rw [Data.buffer_write Data.external_getBuffer, htake]

/-- The last try fails. -/
theorem tryConvert_zero (h : Converts iconv str units)
    (hlt : (tmp.getBuffer target).getBufSize < (output units).length) (out : Bytes) :
    (∃ tmp', tryConvert iconv throwOnConvErr str 0 tmp target = .ok (tmp', out)) ↔
      throwOnConvErr = false ∧ out = str := by
  unfold tryConvert convertError
  simp only [h.fill_eq, status_of_lt hlt]
  cases throwOnConvErr with
  | false => simp [eq_comm]
  | true => simp

theorem tryConvert_succ (h : Converts iconv str units)
    (hlt : (tmp.getBuffer target).getBufSize < (output units).length) :
    ∃ tmp', tmp'.SameRoom (tmp.getBuffer target) ∧
      tryConvert iconv throwOnConvErr str (retries + 1) tmp target =
        tryConvert iconv throwOnConvErr str retries tmp'
          (target + unconverted (tmp.getBuffer target).getBufSize units * 2) := by
  refine ⟨_, Data.sameRoom_write _ 0 (fill (tmp.getBuffer target).getBufSize units).out, ?_⟩
  conv_lhs => unfold tryConvert
  simp only [h.fill_eq, status_of_lt hlt]
  rfl

/-- The string itself is shorter than what did not fit, so that it is not the result by chance. -/
theorem tryConvert_iff (h : Converts iconv str units) : ∀ {retries target : ℕ} {tmp tmp' : Data},
    tmp.SameRoom tmp' → str.length ≤ target →
    ((∃ t, tryConvert iconv throwOnConvErr str retries tmp target = .ok (t, output units)) ↔
      ∃ room ∈ rooms units retries tmp' target, (output units).length ≤ room)
  | retries, target, tmp, tmp', hsame, htarget => by
    have hroom := (hsame.getBuffer target).getBufSize
    rcases Nat.lt_or_ge (tmp.getBuffer target).getBufSize (output units).length with hlt | hfit
    swap
    · refine iff_of_true (tryConvert_of_le h hfit)
        ⟨(tmp'.getBuffer target).getBufSize, ?_, hroom ▸ hfit⟩
      cases retries <;> simp [rooms]
    cases retries with
    | zero =>
      have hne : output units ≠ str := by
        intro he
        have hle := Data.le_getBufSize_getBuffer (d := tmp) (n := target)
        rw [he] at hlt
        omega
      rw [tryConvert_zero h hlt, rooms]
      simp only [hne, and_false, List.mem_singleton, exists_eq_left, false_iff, ← hroom]
      omega
    | succ retries =>
      obtain ⟨t, ht, heq⟩ :=
        @tryConvert_succ iconv throwOnConvErr str units retries target tmp h hlt
      rw [heq, rooms, tryConvert_iff h (ht.trans (hsame.getBuffer target)) (by omega)]
      simp only [List.mem_cons, exists_eq_or_imp, ← hroom]
      exact (or_iff_right (by omega)).symm

/-- Which strings are converted completely. -/
theorem convert_iff (h : Converts iconv str units) :
    (∃ tmp', convert iconv throwOnConvErr tmp str = .ok (tmp', output units)) ↔ Fits tmp units := by
  rw [convert, Fits, h.input_eq]
  exact tryConvert_iff h ⟨rfl, rfl, rfl, rfl⟩ (by omega)

end Convert

/-! ## Four bytes for one -/

/-- ISO-8859-1 to UCS-4. -/
def ucs4Units (str : Bytes) : Units :=
  str.map fun c => ([c], [0, 0, 0, c])

def ucs4 : Iconv := fun str room => fill room (ucs4Units str)

theorem converts_ucs4 (str : Bytes) : Converts ucs4 str (ucs4Units str) where
  input_eq := by
    induction str with
    | nil => rfl
    | cons c str ih => exact congrArg (c :: ·) ih
  fill_eq _ := rfl

theorem length_output_ucs4 : ∀ str : Bytes, (output (ucs4Units str)).length = 4 * str.length
  | [] => rfl
  | c :: str => by
    have ih := length_output_ucs4 str
    have hlen : (output (ucs4Units (c :: str))).length = 4 + (output (ucs4Units str)).length := by
      rw [ucs4Units, List.map_cons, output, List.flatMap_cons, List.length_append]
      rfl
    rw [hlen, ih, List.length_cons]
    omega

theorem unconverted_ucs4 : ∀ (room : ℕ) (str : Bytes),
    unconverted room (ucs4Units str) = str.length - room / 4
  | _, [] => (Nat.zero_sub _).symm
  | room, c :: str => by
    have hcons : ucs4Units (c :: str) = ([c], [0, 0, 0, c]) :: ucs4Units str := rfl
    rw [unconverted, hcons, fill]
    split
    · rename_i hle
      have ih := unconverted_ucs4 (room - 4) str
      rw [unconverted] at ih
      change 4 ≤ room at hle
      change (fill (room - 4) (ucs4Units str)).inbytesleft = _
      rw [ih, List.length_cons]
      omega
    · rename_i hlt
      change ¬4 ≤ room at hlt
      rw [← hcons, (converts_ucs4 (c :: str)).input_eq, List.length_cons]
      change str.length + 1 = str.length + 1 - room / 4
      omega

/-- An object without data, behind the default prepend space. -/
def Empty (d : Data) (block : ℕ) : Prop :=
  d.external = false ∧ d.dataSize = 0 ∧ d.room = ⟨0x100, block⟩

/-- A block that is too small is replaced by one that has 1024 bytes more than asked for. -/
theorem empty_getBuffer {d : Data} {block n : ℕ} (h : Empty d block) (hn : block < n) :
    Empty (d.getBuffer n) (n + 0x500) ∧ (d.getBuffer n).getBufSize = n + 0x400 := by
  obtain ⟨hown, hsize, hroom⟩ := h
  have hreplaced : d.room.Replaced n := by
    rw [hroom]
    change block - 0x100 < n + 0x100 ∧ block < n + (1024 + 0x100)
    omega
  obtain ⟨hafter, hbuf⟩ := Data.getBuffer_of_replaced hown hsize (by omega) hreplaced
  rw [Room.after, if_pos hreplaced, hroom] at hafter
  refine ⟨⟨Data.external_getBuffer, by rw [Data.dataSize_getBuffer, hsize], hafter⟩, ?_⟩
  rw [← Data.length_buffer Data.external_getBuffer, hbuf, List.length_replicate]

/-- 170 bytes, whose conversion has 680. -/
def manyA : Bytes :=
  List.replicate 170 65

/-- The first buffer has 600 bytes, so that 20 of the string are left,
and the second one has enough. -/
theorem convert_ucs4_A :
    rooms (ucs4Units manyA) 2 (Data.new (-1) 600 0x100) 340 = [600, 1404, 1404] ∧
    ∃ tmp', convert ucs4 true (Data.new (-1) 600 0x100) manyA =
    .ok (tmp', output (ucs4Units manyA)) := by
  have hrooms : rooms (ucs4Units manyA) 2 (Data.new (-1) 600 0x100) 340 = [600, 1404, 1404] := by
    decide +kernel
  refine ⟨hrooms, (convert_iff (converts_ucs4 manyA)).mpr ⟨1404, ?_, ?_⟩⟩
  · rw [(converts_ucs4 manyA).input_eq, manyA, List.length_replicate, ← manyA, hrooms]
    decide
  · rw [length_output_ucs4, manyA, List.length_replicate]
    decide

theorem not_convert_of_length {str : Bytes} (hlen : str.length = 20000) (throwOnConvErr : Bool) :
    ¬∃ tmp', convert ucs4 throwOnConvErr Data.default str = .ok (tmp', output (ucs4Units str)) := by
  have hconverts := converts_ucs4 str
  have hempty : Empty Data.default 0x4100 := ⟨rfl, rfl, Data.room_default⟩
  obtain ⟨h1, hsize1⟩ := empty_getBuffer hempty (n := 40000) (by omega)
  obtain ⟨h2, hsize2⟩ := empty_getBuffer h1 (n := 59488) (by omega)
  obtain ⟨-, hsize3⟩ := empty_getBuffer h2 (n := 69232) (by omega)
  have hrooms : rooms (ucs4Units str) 2 Data.default (str.length * 2) = [41024, 60512, 70256] := by
    rw [hlen]
    simp only [rooms, unconverted_ucs4, hlen, Nat.reduceMul, Nat.reduceAdd, Nat.reduceDiv,
      Nat.reduceSub, hsize1, hsize2, hsize3]
  rw [convert, tryConvert_iff hconverts ⟨rfl, rfl, rfl, rfl⟩ (by omega), hrooms,
    length_output_ucs4, hlen]
  decide

/-- Three tries are not enough for 20000 bytes. -/
theorem not_convert_ucs4 :
    Converts ucs4 (List.replicate 20000 65) (ucs4Units (List.replicate 20000 65)) ∧
    (∀ u ∈ ucs4Units (List.replicate 20000 65), u.2.length ≤ 4 * u.1.length) ∧
    ¬∃ tmp', convert ucs4 false Data.default (List.replicate 20000 65) =
      .ok (tmp', output (ucs4Units (List.replicate 20000 65))) := by
  refine ⟨converts_ucs4 _, fun u hu => ?_, not_convert_of_length List.length_replicate false⟩
  obtain ⟨c, -, rfl⟩ := List.mem_map.mp hu
  exact le_rfl

end IConvHandle

end Barry
