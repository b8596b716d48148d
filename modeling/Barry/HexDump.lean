import Barry.Data
import Barry.Lib.Words
import Barry.VTime

/-!
# Hex dumps

A `Data` object is dumped in lines of 16 bytes, each with its index in front and, if `bPrintAscii`
is set, the characters behind it (`data.cc`). `ReadDataArray` reads the objects of a text back, each
from behind a line that starts with `sep:` or `rep:`. On the last line it goes on to read bytes
until it has 16, into the column of the characters : a dump is read back if there is no number at
the start of it (`Legible`). An index that takes more than its 8 digits ends an object.
-/

namespace Barry

open scoped Bytes

/-- `std::isprint`, in the C locale. -/
def isPrint (c : UInt8) : Bool :=
  32 ≤ c ∧ c ≤ 126

/-- Whether `IsHexData` takes a character for a digit. -/
def isHexChar (c : UInt8) : Bool :=
  48 ≤ c ∧ c ≤ 57 ∨ 97 ≤ c ∧ c ≤ 102

/-- `IsHexData`. -/
def isHexData (s : Bytes) : Bool :=
  let str := s.takeWhile (· ≠ 0)
  (str.take 4).all (· = 32) &&
    ((str.drop 4).take 8).all isHexChar && (str.drop 12).headD 0 = 58

namespace Data

/-- The columns of the bytes on a line. -/
def hexColumns : ℕ → Bytes → Bytes
  | 0, _ => []
  | n + 1, [] => ascii "   " ++ hexColumns n []
  | n + 1, c :: cs => hexPadded 2 c.toNat ++ ascii " " ++ hexColumns n cs

/-- The column of the characters. -/
def asciiColumn (cs : Bytes) : Bytes :=
  cs.map fun c => if isPrint c then c else 46

/-- A line of `DumpHexLine`, of the bytes from an index on. -/
def dumpLine (printAscii : Bool) (index size : ℕ) (cs : Bytes) : Bytes :=
  ascii "    " ++ hexPadded 8 index ++ ascii ": " ++ hexColumns size cs ++
    if printAscii then ascii " " ++ asciiColumn (cs.take size) else []

/-- `DumpHexLine`. -/
def dumpHexLine (d : Data) (printAscii : Bool) (index size : ℕ) : Bytes :=
  dumpLine printAscii index size (d.getData.drop index) ++ ascii "\n"

/-- `DumpHex`. -/
def dumpHex (d : Data) (printAscii : Bool) : Bytes :=
  (List.range ((d.getSize + 15) / 16)).flatMap fun k => d.dumpHexLine printAscii (16 * k) 16

/-- The loop of `InputHexLine`, with as many values to come. -/
def readValues : ℕ → TextStream → List ℕ
  | 0, _ => []
  | n + 1, s =>
    let (value, s) := extractHex 0xffffffff s
    if s.fail then [] else value.getD 0 :: readValues n s

/-- The end of `InputHexLine`, with the values as bytes. -/
def store (d : Data) (address : ℕ) (values : Bytes) : Data :=
  ((d.makeSpace (address + values.length) 0).resize (max (address + values.length) d.dataSize)
    ⟨external_makeSpace, by
      have hroom := lt_getBufSize_makeSpace (d := d) (m := address + values.length) (p := 0)
      have hdata := (d.makeSpace (address + values.length) 0).inBlock external_makeSpace
      rw [getBufSize_of_own external_makeSpace] at hroom
      rw [dataSize_makeSpace] at hdata
      omega⟩).write address values

/-- `InputHexLine`. -/
def inputHexLine (d : Data) (is : TextStream) : Except Error Data :=
  let (address, is) := extractHex (2 ^ 64 - 1) is
  if is.fail then .ok d
  else
    let values := readValues 16 (is.ignore 1)
    if 2 ^ 64 ≤ address.getD 0 + values.length then .error (.fault "Data::InputHexLine")
    else .ok (d.store (address.getD 0) (values.map UInt8.ofNat))

end Data

/-- `IsEndpointStart`, and the endpoint. -/
def isEndpointStart (line : Bytes) : Option ℤ :=
  if line.take 5 = ascii "sep: " ∨ line.take 5 = ascii "rep: " then
    some (atoi ((line.drop 5).takeWhile (· ≠ 0)))
  else none

namespace DataArray

/-- What `ReadDataArray` has between two lines. -/
structure Reader where
  array : List Data
  inEndpoint : Bool
  current : ℕ
  largestSize : ℕ

/-- A line that starts an object, or is skipped. -/
def startLine (r : Reader) (line : Bytes) : Reader :=
  match isEndpointStart line with
  | some endpoint =>
    { r with
      array := r.array ++ [Data.new endpoint r.largestSize 0x100]
      inEndpoint := true
      current := r.array.length }
  | none => r

/-- What `ReadDataArray` does with a line. -/
def readLine (r : Reader) (line : Bytes) : Except Error Reader :=
  if r.inEndpoint then
    match r.array[r.current]? with
    | none => .error (.fault "ReadDataArray")
    | some d =>
      if isHexData line then do
        let d ← d.inputHexLine ⟨line, false⟩
        .ok { r with array := r.array.set r.current d }
      else
        .ok (startLine { r with
          inEndpoint := false, largestSize := max r.largestSize d.getBufSize } line)
  else .ok (startLine r line)

/-- `ReadDataArray`. The last line is what comes of the end of the text. -/
def read (text : Bytes) (array : List Data) : Except Error (List Data) := do
  let r ← (linesOf text ++ [[]]).foldlM readLine ⟨array, false, 0, 0x100⟩
  .ok r.array

/-- Objects that are dumped, each behind its separator line. -/
def dump (printAscii : Bool) (items : List (Bytes × Data)) : Bytes :=
  items.flatMap fun x => x.1 ++ ascii "\n" ++ x.2.dumpHex printAscii

end DataArray

/-! ## A line -/

namespace Data

section Line

variable {printAscii : Bool} {d : Data} {cs tail : Bytes} {n index : ℕ}

theorem isSpace_of_mem_hexColumns_nil :
    ∀ {n : ℕ} {c : UInt8}, c ∈ hexColumns n [] → isSpace c = true
  | 0, _, h => absurd h List.not_mem_nil
  | n + 1, c, h =>
    (List.mem_append.mp h).elim (fun h => (by decide : ∀ c ∈ ascii "   ", isSpace c = true) c h)
      isSpace_of_mem_hexColumns_nil

theorem readValues_blanks {blanks : Bytes} (h : ∀ c ∈ blanks, isSpace c = true) :
    readValues n ⟨blanks ++ tail, false⟩ = readValues n ⟨tail, false⟩ := by
  cases n with
  | zero => rfl
  | succ n => rw [readValues, TextStream.extractHex_blanks h, readValues]

/-- The bytes of a line are read, and then what is behind them. -/
theorem readValues_hexColumns : ∀ {n : ℕ} {cs : Bytes}, cs.length ≤ n →
    readValues n ⟨32 :: (hexColumns n cs ++ tail), false⟩ =
      cs.map UInt8.toNat ++ readValues (n - cs.length) ⟨tail, false⟩
  | n, [], _ => @readValues_blanks tail n (32 :: hexColumns n []) <|
      List.forall_mem_cons.mpr ⟨by decide, fun _ => isSpace_of_mem_hexColumns_nil⟩
  | n + 1, c :: cs, h => by
    have hle : c.toNat ≤ 0xffffffff := c.toNat_lt.le.trans (by decide)
    have hread := @extractHex_hexPadded _ c.toNat 2 hle [32] (32 :: (hexColumns n cs ++ tail))
      (by decide) (by simp [hexValue])
    have htext : 32 :: (hexColumns (n + 1) (c :: cs) ++ tail) =
        [32] ++ hexPadded 2 c.toNat ++ 32 :: (hexColumns n cs ++ tail) := by
      rw [hexColumns, show ascii " " = [32] from rfl]
      simp
    rw [htext, readValues, hread]
    dsimp only
    rw [if_neg (by decide), readValues_hexColumns (Nat.le_of_succ_le_succ h), List.length_cons,
      Nat.add_sub_add_right]
    rfl

theorem length_readValues_le : ∀ (n : ℕ) (s : TextStream), (readValues n s).length ≤ n
  | 0, _ => Nat.le_refl 0
  | n + 1, s => by
    rw [readValues]
    dsimp only
    split
    · exact Nat.zero_le _
    · exact Nat.succ_le_succ (length_readValues_le n _)

theorem hexColumns_take : ∀ (n : ℕ) (cs : Bytes), hexColumns n (cs.take n) = hexColumns n cs
  | 0, _ => rfl
  | _ + 1, [] => rfl
  | n + 1, c :: cs => by rw [List.take_succ_cons, hexColumns, hexColumns, hexColumns_take]

/-- A line has no more than its bytes. -/
theorem dumpLine_take (cs : Bytes) : dumpLine printAscii index n (cs.take n) =
    dumpLine printAscii index n cs := by
  rw [dumpLine, dumpLine, hexColumns_take, List.take_take, Nat.min_self]

/-- What is read behind the bytes of a line. -/
def behind (printAscii : Bool) (cs : Bytes) : List ℕ :=
  readValues (16 - cs.length) ⟨if printAscii then ascii " " ++ asciiColumn cs else [], false⟩

theorem inputHexLine_dumpLine (printAscii : Bool) (hcs : cs.length ≤ 16) (hindex : index < 2 ^ 32)
    (d : Data) :
    d.inputHexLine ⟨dumpLine printAscii index 16 cs, false⟩ =
      .ok (d.store index (cs ++ (behind printAscii cs).map UInt8.ofNat)) := by
  have haddress := @extractHex_hexPadded (2 ^ 64 - 1) index 8 (by omega) (ascii "    ")
    (ascii ": " ++ hexColumns 16 cs ++ if printAscii then ascii " " ++ asciiColumn cs else [])
    (by decide)
    (fun c hc => by
      obtain rfl : (58 : UInt8) = c := Option.some.inj hc
      decide)
  have htext : dumpLine printAscii index 16 cs = ascii "    " ++ hexPadded 8 index ++
      (ascii ": " ++ hexColumns 16 cs ++ if printAscii then ascii " " ++ asciiColumn cs
        else []) := by
    rw [dumpLine, List.take_of_length_le hcs]
    simp only [List.append_assoc]
  generalize hcolumn : (if printAscii then ascii " " ++ asciiColumn cs else []) =
    column at haddress htext
  have hignore : TextStream.ignore 1 ⟨ascii ": " ++ hexColumns 16 cs ++ column, false⟩ =
      ⟨32 :: (hexColumns 16 cs ++ column), false⟩ := rfl
  have hvalues := @readValues_hexColumns column 16 cs hcs
  have hlength := length_readValues_le 16 ⟨32 :: (hexColumns 16 cs ++ column), false⟩
  have hfit : ¬2 ^ 64 ≤ (some index).getD 0 +
      (readValues 16 ⟨32 :: (hexColumns 16 cs ++ column), false⟩).length := by
    rw [Option.getD_some]
    omega
  have hbytes : (cs.map UInt8.toNat).map UInt8.ofNat = cs := by
    rw [List.map_map]
    exact (List.map_congr_left fun c _ => UInt8.ofNat_toNat).trans (List.map_id _)
  rw [inputHexLine, htext, haddress]
  dsimp only
  rw [if_neg (by decide), hignore, if_neg hfit, hvalues, Option.getD_some, List.map_append,
    hbytes, behind, hcolumn]

/-- The values of a line are put behind what is there. -/
theorem getData_store (d : Data) (values : Bytes) :
    (d.store d.dataSize values).getData = d.getData ++ values := by
  have hroom := lt_getBufSize_makeSpace (d := d) (m := d.dataSize + values.length) (p := 0)
  rw [← length_buffer external_makeSpace] at hroom
  have hdata : (d.makeSpace (d.dataSize + values.length) 0).buffer.take d.dataSize = d.getData := by
    rw [← getData_makeSpace (m := d.dataSize + values.length) (p := 0),
      getData_of_own external_makeSpace, dataSize_makeSpace]
  have hmax : max (d.dataSize + values.length) d.dataSize = d.dataSize + values.length :=
    Nat.max_eq_left (Nat.le_add_right _ _)
  have hown : (d.store d.dataSize values).external = false := external_makeSpace (d := d)
  rw [getData_of_own hown, store, buffer_write (by exact external_makeSpace), buffer_resize,
    dataSize_write, dataSize_resize, hmax, take_splice_add hroom.le, hdata]

/-! ### The text of a line -/

/-- A padded number is of digits. -/
theorem hexPadded_spec {width n : ℕ} {c : UInt8} (h : c ∈ hexPadded width n) :
    isHexChar c = true ∧ isPrint c = true ∧ c ≠ 58 := by
  have hall : ∀ d < 16,
      isHexChar (hexDigit d) = true ∧ isPrint (hexDigit d) = true ∧ hexDigit d ≠ 58 := by
    decide
  obtain ⟨d, hd, rfl⟩ := exists_digit_of_mem_hexPadded h
  exact hall d hd

theorem isPrint_of_mem_hexColumns :
    ∀ {n : ℕ} {cs : Bytes} {c : UInt8}, c ∈ hexColumns n cs → isPrint c = true
  | 0, _, _, h => absurd h List.not_mem_nil
  | n + 1, [], c, h => (List.mem_append.mp h).elim
      (fun h => (by decide : ∀ c ∈ ascii "   ", isPrint c = true) c h) isPrint_of_mem_hexColumns
  | n + 1, b :: cs, c, h => by
    rcases List.mem_append.mp h with h | h
    · rcases List.mem_append.mp h with h | h
      · exact (hexPadded_spec h).2.1
      · exact (by decide : ∀ c ∈ ascii " ", isPrint c = true) c h
    · exact isPrint_of_mem_hexColumns h

/-- There are no others than printable characters on a line. -/
theorem isPrint_of_mem_dumpLine {c : UInt8} (h : c ∈ dumpLine printAscii index n cs) :
    isPrint c = true := by
  have hblanks : ∀ c ∈ ascii "    ", isPrint c = true := by decide
  have hcolon : ∀ c ∈ ascii ": ", isPrint c = true := by decide
  have hblank : ∀ c ∈ ascii " ", isPrint c = true := by decide
  have hcolumn : ∀ c ∈ asciiColumn (cs.take n), isPrint c = true := by
    intro c hc
    obtain ⟨b, -, rfl⟩ := List.mem_map.mp hc
    split
    · assumption
    · decide
  rcases List.mem_append.mp h with h | h
  · rcases List.mem_append.mp h with h | h
    · rcases List.mem_append.mp h with h | h
      · rcases List.mem_append.mp h with h | h
        · exact hblanks c h
        · exact (hexPadded_spec h).2.1
      · exact hcolon c h
    · exact isPrint_of_mem_hexColumns h
  · split at h
    · exact (List.mem_append.mp h).elim (hblank c) (hcolumn c)
    · exact absurd h List.not_mem_nil

theorem not_mem_dumpLine :
    0 ∉ dumpLine printAscii index n cs ∧ 10 ∉ dumpLine printAscii index n cs :=
  ⟨fun h => absurd (isPrint_of_mem_dumpLine h) (by decide),
    fun h => absurd (isPrint_of_mem_dumpLine h) (by decide)⟩

/-- A line is taken for one if its index has 8 digits. -/
theorem isHexData_dumpLine :
    isHexData (dumpLine printAscii index n cs) = decide (index < 2 ^ 32) := by
  have htake : (dumpLine printAscii index n cs).takeWhile (· ≠ 0) =
      dumpLine printAscii index n cs :=
    List.takeWhile_eq_self_iff.mpr fun c hc => decide_eq_true fun he => not_mem_dumpLine.1 (he ▸ hc)
  obtain ⟨rest, hrest⟩ : ∃ rest, dumpLine printAscii index n cs =
      [32, 32, 32, 32] ++ (hexPadded 8 index ++ 58 :: rest) :=
    ⟨32 :: (hexColumns n cs ++ if printAscii then ascii " " ++ asciiColumn (cs.take n) else []), by
      rw [dumpLine, show ascii "    " = [32, 32, 32, 32] from rfl,
        show ascii ": " = [58, 32] from rfl]
      simp only [List.append_assoc, List.cons_append, List.nil_append]⟩
  have hlength := @length_hexPadded index 8 (by omega)
  have hpow : 16 ^ 8 = 2 ^ 32 := rfl
  generalize hp : hexPadded 8 index = p at hrest hlength
  have hdigits : ∀ c ∈ p, isHexChar c = true ∧ c ≠ 58 := fun c hc =>
    ⟨(hexPadded_spec (hp.symm ▸ hc)).1, (hexPadded_spec (hp.symm ▸ hc)).2.2⟩
  have htext : isHexData (dumpLine printAscii index n cs) =
      (((p ++ 58 :: rest).take 8).all isHexChar &&
      decide (((p ++ 58 :: rest).drop 8).headD 0 = 58)) := by
    rw [isHexData, htake, hrest]
    rfl
  rw [htext]
  by_cases hlt : index < 2 ^ 32
  · have h8 : p.length = 8 := hlength hlt
    rw [List.take_left' h8, List.drop_left' h8, List.headD_cons,
      List.all_eq_true.mpr fun c hc => (hdigits c hc).1, decide_eq_true hlt]
    rfl
  · have h9 : 8 < p.length := by
      have hnot := mt (@length_hexBytes_le index 8 (by omega)).mp hlt
      rw [← hp, hexPadded, List.length_append]
      omega
    obtain ⟨c, bs, hdrop⟩ := List.exists_cons_of_ne_nil (List.ne_nil_of_length_pos
      (by rw [List.length_drop]; omega : 0 < (p.drop 8).length))
    have hc : c ∈ p := List.mem_of_mem_drop (hdrop ▸ List.mem_cons_self)
    rw [List.drop_append_of_le_length h9.le, hdrop, List.cons_append, List.headD_cons,
      decide_eq_false (hdigits c hc).2, decide_eq_false hlt, Bool.and_false]

end Line

/-! ## An object -/

section Lines

variable {printAscii : Bool} {d : Data} {bs cs : Bytes}

/-- The lines of a dump. -/
def dumpLines (printAscii : Bool) (bs : Bytes) : List Bytes :=
  (List.range ((bs.length + 15) / 16)).map
    fun k => dumpLine printAscii (16 * k) 16 (bs.drop (16 * k))

theorem dumpHex_eq (d : Data) :
    d.dumpHex printAscii = unlines (dumpLines printAscii d.getData) := by
  rw [dumpHex, dumpLines, unlines, List.flatMap_map, length_getData]
  rfl

/-- `InputHexLine`, line after line. -/
def inputLines (d : Data) (lines : List Bytes) : Except Error Data :=
  lines.foldlM (fun d l => d.inputHexLine ⟨l, false⟩) d

/-- A line is read behind those before it. -/
theorem exists_inputHexLine (printAscii : Bool) {k : ℕ} (hdata : d.getData = bs.take (16 * k))
    (hlen : 16 * k ≤ bs.length) (hindex : 16 * k < 2 ^ 32) :
    ∃ d', d.inputHexLine ⟨dumpLine printAscii (16 * k) 16 (bs.drop (16 * k)), false⟩ = .ok d' ∧
      d'.getData = bs.take (16 * k) ++ ((bs.drop (16 * k)).take 16 ++
        (behind printAscii ((bs.drop (16 * k)).take 16)).map UInt8.ofNat) := by
  have hsize : d.dataSize = 16 * k := by
    rw [← length_getData, hdata, List.length_take]
    omega
  have hinput := inputHexLine_dumpLine printAscii
    (List.length_take_le 16 (bs.drop (16 * k))) hindex d
  rw [dumpLine_take] at hinput
  refine ⟨_, hinput, ?_⟩
  rw [← hsize, getData_store, hdata, hsize]

/-- Lines that are full are read back. -/
theorem inputLines_full (printAscii : Bool) (bs : Bytes) (hd : d.getData = []) :
    ∀ {k : ℕ}, 16 * k ≤ bs.length → 16 * k ≤ 2 ^ 32 →
    ∃ d', d.inputLines ((List.range k).map fun k =>
      dumpLine printAscii (16 * k) 16 (bs.drop (16 * k))) = .ok d' ∧ d'.getData = bs.take (16 * k)
  | 0, _, _ => ⟨d, rfl, hd⟩
  | k + 1, hlen, hindex => by
    obtain ⟨d₁, hlines, hdata⟩ := inputLines_full printAscii bs hd (k := k) (by omega) (by omega)
    obtain ⟨d₂, hinput, hdata⟩ := exists_inputHexLine printAscii hdata (by omega) (by omega)
    have hfull : ((bs.drop (16 * k)).take 16).length = 16 := by
      rw [List.length_take, List.length_drop]
      omega
    have hbehind : behind printAscii ((bs.drop (16 * k)).take 16) = [] := by
      rw [behind, hfull]
      rfl
    refine ⟨d₂, ?_, ?_⟩
    · rw [inputLines] at hlines
      rw [inputLines, List.range_succ, List.map_append, List.foldlM_append, hlines]
      exact (bind_pure _).trans hinput
    · rw [hdata, hbehind, List.map_nil, List.append_nil, ← List.take_add]
      rfl

/-- What an object becomes. -/
def readBack (printAscii : Bool) (bs : Bytes) : Bytes :=
  if bs.length ≤ 2 ^ 32 then
    bs ++ (behind printAscii (bs.drop (16 * (bs.length / 16)))).map UInt8.ofNat
  else bs.take (2 ^ 32)

/-- There is nothing behind a line that is not there. -/
theorem behind_nil : ∀ printAscii, behind printAscii [] = []
  | false => rfl
  | true => rfl

/-- All lines of an object that is not too long. -/
theorem inputLines_dumpLines (printAscii : Bool) (hd : d.getData = []) (hlen : bs.length ≤ 2 ^ 32) :
    ∃ d', d.inputLines (dumpLines printAscii bs) = .ok d' ∧
    d'.getData = readBack printAscii bs := by
  obtain ⟨d₁, hlines, hdata⟩ := inputLines_full printAscii bs hd
    (k := bs.length / 16) (by omega) (by omega)
  rw [readBack, if_pos hlen]
  by_cases hrest : bs.length % 16 = 0
  · have hk : (bs.length + 15) / 16 = bs.length / 16 := by omega
    have hall : 16 * (bs.length / 16) = bs.length := by omega
    refine ⟨d₁, by rw [dumpLines, hk]; exact hlines, ?_⟩
    rw [hdata, hall, List.take_length, List.drop_length, behind_nil, List.map_nil, List.append_nil]
  · have hk : (bs.length + 15) / 16 = bs.length / 16 + 1 := by omega
    obtain ⟨d₂, hinput, hdata⟩ := exists_inputHexLine printAscii hdata (by omega) (by omega)
    refine ⟨d₂, ?_, ?_⟩
    · rw [inputLines] at hlines
      rw [inputLines, dumpLines, hk, List.range_succ, List.map_append, List.foldlM_append, hlines]
      exact (bind_pure _).trans hinput
    · have hlast : (bs.drop (16 * (bs.length / 16))).take 16 = bs.drop (16 * (bs.length / 16)) :=
        List.take_of_length_le (by rw [List.length_drop]; omega)
      rw [hdata, hlast, ← List.append_assoc, List.take_append_drop]

end Lines

end Data

/-! ## The reader -/

namespace DataArray

open Data

section Reader

variable {printAscii : Bool} {r : Reader} {as : List Data} {d d' : Data} {lines : List Bytes}
    {line bs : Bytes}

/-- The object that lines are added to is there. -/
def Reader.Valid (r : Reader) : Prop :=
  r.inEndpoint = true → r.current < r.array.length

/-- A line of text that starts an object starts with an `s` or an `r`. -/
theorem isHexData_of_isEndpointStart (h : (isEndpointStart line).isSome = true) :
    isHexData line = false := by
  have hcons (c : UInt8) (rest : Bytes) (hzero : c ≠ 0) (hblank : c ≠ 32) :
      isHexData (c :: rest) = false := by
    simp [isHexData, hzero, hblank]
  have hhead : line.head? = some 115 ∨ line.head? = some 114 := by
    unfold isEndpointStart at h
    split at h
    · rename_i hstart
      rcases hstart with hstart | hstart
      · left
        rw [← List.take_append_drop 5 line, hstart]
        rfl
      · right
        rw [← List.take_append_drop 5 line, hstart]
        rfl
    · cases h
  cases line with
  | nil => exact absurd hhead (by simp)
  | cons c rest =>
    rcases hhead with hhead | hhead
    · obtain rfl : c = 115 := Option.some.inj hhead
      exact hcons _ _ (by decide) (by decide)
    · obtain rfl : c = 114 := Option.some.inj hhead
      exact hcons _ _ (by decide) (by decide)

theorem isEndpointStart_dumpLine {index n : ℕ} {cs : Bytes} :
    isEndpointStart (dumpLine printAscii index n cs) = none := by
  refine if_neg ?_
  rintro (h | h)
  · have hhead : some (32 : UInt8) = some 115 := congrArg List.head? h
    cases hhead
  · have hhead : some (32 : UInt8) = some 114 := congrArg List.head? h
    cases hhead

/-- A line that is not of a dump. -/
theorem readLine_of_not_hex (hr : r.Valid) (h : isHexData line = false) :
    ∃ size, readLine r line =
      .ok (startLine { r with inEndpoint := false, largestSize := size } line) := by
  obtain ⟨array, inEndpoint, current, largestSize⟩ := r
  cases inEndpoint with
  | false => exact ⟨largestSize, rfl⟩
  | true =>
    have hlt : current < array.length := hr rfl
    refine ⟨max largestSize array[current].getBufSize, ?_⟩
    simp only [readLine, if_true, List.getElem?_eq_getElem hlt, h, Bool.false_eq_true, if_false]

/-- A separator line starts an object that has no bytes. -/
theorem readLine_separator (hr : r.Valid) (h : (isEndpointStart line).isSome = true) :
    ∃ r' d, readLine r line = .ok r' ∧ r'.array = r.array ++ [d] ∧ d.getData = [] ∧
      r'.inEndpoint = true ∧ r'.current = r.array.length := by
  obtain ⟨size, hline⟩ := readLine_of_not_hex hr (isHexData_of_isEndpointStart h)
  obtain ⟨endpoint, hstart⟩ := Option.isSome_iff_exists.mp h
  rw [startLine, hstart] at hline
  exact ⟨_, _, hline, rfl, getData_of_dataSize_eq_zero rfl, rfl, rfl⟩

/-- Lines of a dump are added to the object. -/
theorem foldlM_readLine_hex (hin : r.inEndpoint = true) (harray : r.array = as ++ [d])
    (hcurrent : r.current = as.length) (hhex : ∀ l ∈ lines, isHexData l = true)
    (hlines : d.inputLines lines = .ok d') :
    lines.foldlM readLine r = .ok { r with array := as ++ [d'] } := by
  induction lines generalizing r d with
  | nil =>
    obtain rfl : d = d' := Except.ok.inj hlines
    rw [← harray]
    rfl
  | cons l lines ih =>
    obtain ⟨hl, hhex⟩ := List.forall_mem_cons.mp hhex
    rw [inputLines, List.foldlM_cons] at hlines
    cases hinput : d.inputHexLine ⟨l, false⟩ with
    | error e =>
      rw [hinput] at hlines
      cases hlines
    | ok d₁ =>
      rw [hinput] at hlines
      have hget : r.array[r.current]? = some d := by
        rw [harray, hcurrent]
        exact List.getElem?_concat_length
      have hset : r.array.set r.current d₁ = as ++ [d₁] := by
        rw [harray, hcurrent, List.set_append_right _ _ (Nat.le_refl _), Nat.sub_self,
          List.set_cons_zero]
      have hline : readLine r l = .ok { r with array := as ++ [d₁] } := by
        rw [readLine, if_pos hin, hget]
        dsimp only
        rw [if_pos hl, hinput, ← hset]
        rfl
      rw [List.foldlM_cons, hline]
      exact ih (r := { r with array := as ++ [d₁] }) hin rfl hcurrent hhex hlines

/-- Other lines change no object. -/
theorem foldlM_readLine_other (hr : r.Valid)
    (hlines : ∀ l ∈ lines, isHexData l = false ∧ isEndpointStart l = none) :
    ∃ r', lines.foldlM readLine r = .ok r' ∧ r'.array = r.array ∧ r'.Valid := by
  induction lines generalizing r with
  | nil => exact ⟨r, rfl, rfl, hr⟩
  | cons l lines ih =>
    obtain ⟨⟨hhex, hstart⟩, hlines⟩ := List.forall_mem_cons.mp hlines
    obtain ⟨size, hline⟩ := readLine_of_not_hex hr hhex
    rw [startLine, hstart] at hline
    obtain ⟨r', hfold, harray, hvalid⟩ := ih
      (r := { r with inEndpoint := false, largestSize := size }) (fun h => by cases h) hlines
    refine ⟨r', ?_, harray, hvalid⟩
    rw [List.foldlM_cons, hline]
    exact hfold

/-- Lines whose indexes have 8 digits. -/
theorem isHexData_of_mem_dumpLines {n : ℕ} (h : 16 * n < 2 ^ 32 + 16) :
    ∀ l ∈ (List.range n).map (fun k => dumpLine printAscii (16 * k) 16 (bs.drop (16 * k))),
      isHexData l = true := by
  intro l hl
  obtain ⟨k, hk, rfl⟩ := List.mem_map.mp hl
  have hlt := List.mem_range.mp hk
  rw [isHexData_dumpLine, decide_eq_true]
  omega

/-- The first lines of a long object have indexes of 8 digits, and the others end it. -/
theorem foldlM_readLine_long (printAscii : Bool) (hin : r.inEndpoint = true)
    (harray : r.array = as ++ [d]) (hcurrent : r.current = as.length) (hdata : d.getData = [])
    (hlen : ¬bs.length ≤ 2 ^ 32) :
    ∃ r' d', (dumpLines printAscii bs).foldlM readLine r = .ok r' ∧ r'.array = as ++ [d'] ∧
      d'.getData = bs.take (2 ^ 32) ∧ r'.Valid := by
  obtain ⟨K, hK⟩ : ∃ K, 16 * K = 2 ^ 32 := ⟨2 ^ 28, by decide⟩
  obtain ⟨m, hm⟩ : ∃ m, (bs.length + 15) / 16 = K + m := ⟨(bs.length + 15) / 16 - K, by omega⟩
  obtain ⟨d', hlines, hback⟩ := inputLines_full printAscii bs hdata (k := K) (by omega) hK.le
  have hsplit : dumpLines printAscii bs =
      ((List.range K).map fun k => dumpLine printAscii (16 * k) 16 (bs.drop (16 * k))) ++
      ((List.range m).map (K + ·)).map
      fun k => dumpLine printAscii (16 * k) 16 (bs.drop (16 * k)) := by
    rw [dumpLines, hm, List.range_add, List.map_append]
  have hother : ∀ l ∈ ((List.range m).map (K + ·)).map
      (fun k => dumpLine printAscii (16 * k) 16 (bs.drop (16 * k))),
      isHexData l = false ∧ isEndpointStart l = none := by
    intro l hl
    obtain ⟨k, hk, rfl⟩ := List.mem_map.mp hl
    obtain ⟨j, -, rfl⟩ := List.mem_map.mp hk
    refine ⟨?_, isEndpointStart_dumpLine⟩
    rw [isHexData_dumpLine, decide_eq_false]
    omega
  have hvalid : Reader.Valid { r with array := as ++ [d'] } := fun _ => by
    rw [hcurrent, List.length_append]
    exact Nat.lt_succ_self _
  obtain ⟨r', hfold, harray', hvalid'⟩ := foldlM_readLine_other hvalid hother
  refine ⟨r', d', ?_, harray', by rw [hback, hK], hvalid'⟩
  rw [hsplit, List.foldlM_append, foldlM_readLine_hex hin harray hcurrent
    (isHexData_of_mem_dumpLines (by omega)) hlines]
  exact hfold

/-- An object of a dump is read behind those before it. -/
theorem foldlM_readLine_item (printAscii : Bool) (hr : r.Valid)
    (h : (isEndpointStart line).isSome = true) (bs : Bytes) :
    ∃ r' d, (line :: dumpLines printAscii bs).foldlM readLine r = .ok r' ∧
    r'.array = r.array ++ [d] ∧
      d.getData = readBack printAscii bs ∧ r'.Valid := by
  obtain ⟨r₁, d, hline, harray, hdata, hin, hcurrent⟩ := readLine_separator hr h
  rw [List.foldlM_cons, hline]
  by_cases hlen : bs.length ≤ 2 ^ 32
  · obtain ⟨d', hlines, hback⟩ := inputLines_dumpLines printAscii hdata hlen
    refine ⟨_, d',
      foldlM_readLine_hex hin harray hcurrent (isHexData_of_mem_dumpLines (by omega)) hlines,
      rfl, hback, fun _ => ?_⟩
    rw [hcurrent, List.length_append]
    exact Nat.lt_succ_self _
  · rw [readBack, if_neg hlen]
    exact foldlM_readLine_long printAscii hin harray hcurrent hdata hlen

end Reader

section RoundTrip

variable {printAscii : Bool} {r : Reader} {items : List (Bytes × Data)} {bs : Bytes}

/-- A line that objects can be put behind. -/
def IsSeparator (line : Bytes) : Prop :=
  10 ∉ line ∧ (isEndpointStart line).isSome = true

/-- The lines of objects that are dumped. -/
def itemLines (printAscii : Bool) (items : List (Bytes × Data)) : List Bytes :=
  items.flatMap fun x => x.1 :: dumpLines printAscii x.2.getData

theorem dump_eq (items : List (Bytes × Data)) :
    dump printAscii items = unlines (itemLines printAscii items) := by
  induction items with
  | nil => rfl
  | cons x items ih =>
    rw [dump, List.flatMap_cons, itemLines, List.flatMap_cons, unlines_append,
      unlines_cons, dumpHex_eq]
    rw [dump, itemLines] at ih
    rw [ih]
    simp [ascii]

theorem newline_not_mem_itemLines (h : ∀ x ∈ items, IsSeparator x.1) :
    ∀ l ∈ itemLines printAscii items, 10 ∉ l := by
  intro l hl
  obtain ⟨x, hx, hl⟩ := List.mem_flatMap.mp hl
  rcases List.mem_cons.mp hl with rfl | hl
  · exact (h x hx).1
  · obtain ⟨k, -, rfl⟩ := List.mem_map.mp hl
    exact not_mem_dumpLine.2

/-- All objects of a dump. -/
theorem foldlM_readLine_itemLines (printAscii : Bool) (hr : r.Valid)
    (h : ∀ x ∈ items, IsSeparator x.1) :
    ∃ r', (itemLines printAscii items).foldlM readLine r = .ok r' ∧
      r'.array.map getData =
      r.array.map getData ++ items.map (fun x => readBack printAscii x.2.getData) ∧
      r'.Valid := by
  induction items generalizing r with
  | nil => exact ⟨r, rfl, (List.append_nil _).symm, hr⟩
  | cons x items ih =>
    obtain ⟨hx, hitems⟩ := List.forall_mem_cons.mp h
    obtain ⟨r₁, d, hfold, harray, hdata, hvalid⟩ := foldlM_readLine_item printAscii hr hx.2
      x.2.getData
    obtain ⟨r', hrest, hmap, hvalid'⟩ := ih hvalid hitems
    refine ⟨r', ?_, ?_, hvalid'⟩
    · rw [itemLines, List.flatMap_cons, List.foldlM_append, hfold]
      exact hrest
    · rw [hmap, harray, List.map_append, List.map_cons, List.map_nil, hdata, List.map_cons,
        List.append_assoc, List.singleton_append]

/-- What comes of a dump. -/
theorem read_dump (printAscii : Bool) (h : ∀ x ∈ items, IsSeparator x.1) :
    ∃ array, read (dump printAscii items) [] = .ok array ∧
      array.map getData = items.map fun x => readBack printAscii x.2.getData := by
  obtain ⟨r₁, hfold, hmap, hvalid⟩ := foldlM_readLine_itemLines printAscii
    (r := ⟨[], false, 0, 0x100⟩) (fun hin => by cases hin) h
  obtain ⟨r', hend, harray, -⟩ := @foldlM_readLine_other r₁ [[]] hvalid
    (List.forall_mem_singleton.mpr ⟨rfl, rfl⟩)
  refine ⟨r'.array, ?_, by rw [harray, hmap]; rfl⟩
  rw [read, dump_eq, linesOf_unlines (newline_not_mem_itemLines h), List.foldlM_append, hfold]
  change (List.foldlM readLine r₁ [[]] >>= fun r : Reader => Except.ok r.array) = _
  rw [hend]
  rfl

/-- There is no number at the start of the last line's column of characters, and no index
that takes more than 8 digits. -/
def Legible (printAscii : Bool) (bs : Bytes) : Prop :=
  bs.length ≤ 2 ^ 32 ∧ (printAscii = true →
    (extractHex 0xffffffff ⟨asciiColumn (bs.drop (16 * (bs.length / 16))), false⟩).2.fail = true)

theorem behind_eq_nil_iff {cs : Bytes} (h : cs.length < 16) : behind printAscii cs = [] ↔
    (printAscii = true → (extractHex 0xffffffff ⟨asciiColumn cs, false⟩).2.fail = true) := by
  obtain ⟨n, hn⟩ : ∃ n, 16 - cs.length = n + 1 := ⟨15 - cs.length, by omega⟩
  have hread (s : TextStream) : readValues (n + 1) s = [] ↔
      (extractHex 0xffffffff s).2.fail = true := by
    rw [readValues]
    dsimp only
    split
    · rename_i hfail
      simp [hfail]
    · rename_i hfail
      simp [hfail]
  rw [behind, hn, hread]
  cases printAscii with
  | false => exact ⟨fun _ h => absurd h Bool.false_ne_true, fun _ => rfl⟩
  | true =>
    have hblank := @TextStream.extractHex_blanks (asciiColumn cs) (ascii " ") (by decide) 0xffffffff
    rw [if_pos rfl, hblank]
    exact ⟨fun h _ => h, fun h => h rfl⟩

theorem readBack_eq_self_iff : readBack printAscii bs = bs ↔ Legible printAscii bs := by
  rw [readBack, Legible]
  split
  · rename_i hlen
    have hlast : (bs.drop (16 * (bs.length / 16))).length < 16 := by
      rw [List.length_drop]
      omega
    rw [List.append_right_eq_self, List.map_eq_nil_iff, behind_eq_nil_iff hlast]
    exact ⟨fun h => ⟨hlen, h⟩, And.right⟩
  · rename_i hlen
    refine ⟨fun h => ?_, fun h => absurd h.1 hlen⟩
    have hlength := congrArg List.length h
    rw [List.length_take] at hlength
    omega

/-- Which objects are read back from their dump. -/
theorem read_dump_iff (h : ∀ x ∈ items, IsSeparator x.1) :
    (∃ array, read (dump printAscii items) [] = .ok array ∧
      array.map getData = items.map fun x => x.2.getData) ↔
    ∀ x ∈ items, Legible printAscii x.2.getData := by
  obtain ⟨array, hread, hmap⟩ := read_dump printAscii h
  have hback : (∃ array, read (dump printAscii items) [] = .ok array ∧
      array.map getData = items.map fun x => x.2.getData) ↔
      (items.map fun x => readBack printAscii x.2.getData) = items.map fun x => x.2.getData := by
    rw [hread, ← hmap]
    constructor
    · rintro ⟨array', he, hdata⟩
      rwa [Except.ok.inj he]
    · exact fun hdata => ⟨array, rfl, hdata⟩
  rw [hback, List.map_inj_left]
  exact forall₂_congr fun x _ => readBack_eq_self_iff

/-- An object that ends in a letter that is no digit, and one of which
the characters are not dumped. -/
theorem read_dump_legible :
    (∃ array, read (dump true [(ascii "sep: 1", Data.ofBytes (ascii "xyz")),
      (ascii "rep: 2", Data.ofBytes [0, 0xff])]) [] = .ok array ∧
      array.map getData = [ascii "xyz", [0, 0xff]]) ∧
    ∃ array, read (dump false [(ascii "sep: 1", Data.ofBytes (ascii "a"))]) [] = .ok array ∧
      array.map getData = [ascii "a"] := by
  have hfirst : ∀ x ∈
      [(ascii "sep: 1", Data.ofBytes (ascii "xyz")), (ascii "rep: 2", Data.ofBytes [0, 0xff])],
      IsSeparator x.1 :=
    List.forall_mem_cons.mpr ⟨⟨by decide, by decide⟩,
      List.forall_mem_singleton.mpr ⟨by decide, by decide⟩⟩
  have hsecond : ∀ x ∈ [(ascii "sep: 1", Data.ofBytes (ascii "a"))], IsSeparator x.1 :=
    List.forall_mem_singleton.mpr ⟨by decide, by decide⟩
  exact ⟨(read_dump_iff hfirst).mpr (List.forall_mem_cons.mpr ⟨⟨by decide, fun _ => by decide⟩,
      List.forall_mem_singleton.mpr ⟨by decide, fun _ => by decide⟩⟩),
    (read_dump_iff hsecond).mpr
    (List.forall_mem_singleton.mpr ⟨by decide, fun h => absurd h (by decide)⟩)⟩

/-- A single letter that is a digit. -/
theorem not_read_dump : ¬∀ (printAscii : Bool) (items : List (Bytes × Data)),
    (∀ x ∈ items, IsSeparator x.1) → ∃ array, read (dump printAscii items) [] = .ok array ∧
      array.map getData = items.map fun x => x.2.getData := by
  intro h
  have hsep : ∀ x ∈ [(ascii "sep: 1", Data.ofBytes (ascii "a"))], IsSeparator x.1 :=
    List.forall_mem_singleton.mpr ⟨by decide, by decide⟩
  obtain ⟨array, hread, hmap⟩ := read_dump true hsep
  obtain ⟨array', hread', hdata⟩ := h true _ hsep
  obtain rfl := Except.ok.inj (hread.symm.trans hread')
  have hlegible := readBack_eq_self_iff.mp
    (List.map_inj_left.mp (hmap.symm.trans hdata) _ List.mem_cons_self)
  exact absurd (hlegible.2 rfl) (by decide)

end RoundTrip

end DataArray

end Barry
