import Barry.Lib.Grid
import Barry.Lib.Loop
import Barry.Lib.Text
import Barry.Room

/-!
# Screenshots

`ScreenshotToRGB` (`bmp.cc`) looks for the number of bytes of a pixel in a loop that does not end if
there are no pixels but some bytes, and hands the size of the result to `ReleaseBuffer` as an `int`.
Otherwise it converts the screenshots of 2 and of 4 bytes a pixel, and these only (`RGBExact`).
`ScreenshotToBitmap` puts headers in front, and computes the size of it all as an `int`
(`BitmapExact`). `exact_iff` says when either does what it should.
-/

namespace Barry

/-- `JLScreenInfo`. -/
structure JLScreenInfo where
  width : UInt16
  height : UInt16
  deriving DecidableEq

namespace JLScreenInfo

def pixelCount (info : JLScreenInfo) : ℕ :=
  info.width.toNat * info.height.toNat

end JLScreenInfo

/-- The arguments of `ScreenshotToRGB` that are neither screen nor buffer. -/
structure RGBRequest where
  offset : UInt64
  depth : ℤ
  invert : Bool
  overwriteAlpha : Bool
  alpha : UInt8
  deriving DecidableEq

namespace RGBRequest

def bytesPerPixel (q : RGBRequest) : ℕ :=
  if q.depth = 24 then 3 else 4

/-- The alpha channel of pixels that have none. -/
def defaultAlpha (q : RGBRequest) : UInt8 :=
  if q.overwriteAlpha then q.alpha else 0xff

/-- What is written for a pixel of 2 bytes : blue, green and red. -/
def pixel16 (q : RGBRequest) (value : ℕ) : Bytes :=
  [UInt8.ofNat (value % 0x20 * 0xff / 0x1f), UInt8.ofNat (value / 2 ^ 5 % 0x40 * 0xff / 0x3f),
    UInt8.ofNat (value / 2 ^ 11 % 0x20 * 0xff / 0x1f)] ++
  if q.bytesPerPixel = 4 then [q.defaultAlpha] else []

/-- What is written for a pixel of 4 bytes. -/
def pixel32 (q : RGBRequest) (value : ℕ) : Bytes :=
  [UInt8.ofNat value, UInt8.ofNat (value / 2 ^ 8), UInt8.ofNat (value / 2 ^ 16)] ++
  if q.bytesPerPixel = 4 then
    [if q.overwriteAlpha then q.defaultAlpha else UInt8.ofNat (value / 2 ^ 24)]
  else []

/-- What is written for a pixel. -/
def convert (q : RGBRequest) (dataSize value : ℕ) : Except Error Bytes :=
  if dataSize = 2 then .ok (q.pixel16 value)
  else if dataSize = 4 then .ok (q.pixel32 value)
  else .error (.error
    "ScreenshotToRGB: bad switch value, should never happen. Double check the data_size check.")

end RGBRequest

namespace Bmp

/-- A write through a pointer. -/
def put (buffer : Data) (pos : ℕ) (bs : Bytes) : Except Error Data :=
  if buffer.getBufSize < pos + bs.length then .error (.fault "write") else .ok (buffer.write pos bs)

/-- A turn of the loop that looks for the size of a pixel. What it multiplies is not much more than
the screenshot has, and fits a `size_t`. -/
def dataSizeTurn (size pixelCount dataSize : ℕ) : Except Error (Turn ℕ ℕ) :=
  .ok (if dataSize * pixelCount < size then .again (dataSize + 1) else .leave dataSize)

/-- The pixel of the screenshot that becomes pixel `(i, j)`. None of
these differences is negative. -/
def getOffset (info : JLScreenInfo) (invert : Bool) (i j : ℕ) : ℕ :=
  if invert then info.pixelCount - 1 - (info.width.toNat - 1 - i + info.width.toNat * j)
  else j * info.width.toNat + i

/-- A pixel of the screenshot, by an offset that is an `int`. -/
def readPixel (screenshot : Data) (dataSize : ℕ) (offset : ℤ) : Except Error ℕ :=
  if offset < 0 ∨ screenshot.getSize < dataSize * (offset.toNat + 1) then
    .error (.fault "get_offset")
  else .ok (leNat (slice screenshot.getData (dataSize * offset.toNat) dataSize))

section RGB

variable (info : JLScreenInfo) (screenshot buffer : Data) (q : RGBRequest)

/-- What the loops do for a pixel, with the write pointer. -/
def putPixel (dataSize : ℕ) : Data × ℕ → ℕ × ℕ → Except Error (Data × ℕ)
  | (buffer, write), (i, j) => do
    let value ← readPixel screenshot dataSize (toInt (getOffset info q.invert i j))
    let pixel ← q.convert dataSize value
    let buffer ← put buffer write pixel
    .ok (buffer, write + q.bytesPerPixel)

/-- `total_buffer_size`, a `size_t`. -/
def totalBufferSize : ℕ :=
  (info.pixelCount * q.bytesPerPixel + q.offset.toNat) % 2 ^ 64

/-- `ScreenshotToRGB`, once there is a size of a pixel. -/
def convertPixels (dataSize : ℕ) : Except Error Data :=
  if screenshot.getSize < info.pixelCount * dataSize then
    .error (.error "ScreenshotToRGB: Screenshot data size is too small for given width+height")
  else if dataSize ≠ 2 ∧ dataSize ≠ 4 then
    .error (.error ("ScreenshotToRGB: Screenshot depth is not supported " ++
      "(Barry supports 2 byte or 4 byte pixels in device screenshots)"))
  else do
    let (buffer, _) ← (grid info.width.toNat info.height.toNat).foldlM
        (putPixel info screenshot q dataSize)
      (buffer.getBuffer (totalBufferSize info q), q.offset.toNat)
    buffer.releaseBuffer (toInt (totalBufferSize info q))

/-- `ScreenshotToRGB`, which may not return. -/
def screenshotToRGB (fuel : ℕ) : Option (Except Error Data) :=
  if q.depth ≠ 24 ∧ q.depth ≠ 32 then
    some (.error (.error "ScreenshotToRGB: depth must be 24 or 32"))
  else (Loop.run (dataSizeTurn screenshot.getSize info.pixelCount) fuel 2).map fun dataSize =>
    dataSize >>= convertPixels info screenshot buffer q

end RGB

/-! ## Bitmaps -/

def fileHeaderSize : ℕ :=
  14

def infoHeaderSize : ℕ :=
  40

/-- `GetBitmapHeadersSize`. -/
def getBitmapHeadersSize : ℕ :=
  fileHeaderSize + infoHeaderSize

/-- `GetTotalBitmapSize`, where the pixels are counted as an `int`. -/
def getTotalBitmapSize (info : JLScreenInfo) : Except Error ℕ :=
  if 2 ^ 31 ≤ info.pixelCount * 4 then .error (.fault "GetTotalBitmapSize")
  else .ok (fileHeaderSize + infoHeaderSize + info.pixelCount * 4)

/-- Both headers, field by field. -/
def headers (info : JLScreenInfo) (totalBitmapSize : ℕ) : Bytes :=
  ascii "BM" ++ leBytes 4 totalBitmapSize ++ leBytes 2 0 ++ leBytes 2 0 ++
    leBytes 4 (fileHeaderSize + infoHeaderSize) ++
  (leBytes 4 infoHeaderSize ++ leBytes 4 info.width.toNat ++ leBytes 4 info.height.toNat ++
    leBytes 2 1 ++ leBytes 2 0x20 ++ leBytes 4 0 ++ leBytes 4 (4 * info.pixelCount) ++
    leBytes 4 0 ++ leBytes 4 0 ++ leBytes 4 0 ++ leBytes 4 0)

/-- How `ScreenshotToBitmap` calls `ScreenshotToRGB`. -/
def bitmapRequest : RGBRequest :=
  ⟨54, 32, true, false, 0xff⟩

/-- `ScreenshotToBitmap`, which may not return either. -/
def screenshotToBitmap (info : JLScreenInfo) (screenshot bitmap : Data) (fuel : ℕ) :
    Option (Except Error Data) :=
  match getTotalBitmapSize info with
  | .error e => some (.error e)
  | .ok totalBitmapSize =>
    if screenshot.getSize < info.pixelCount * 2 then
      some (.error (.error "Screenshot data size is too small for given width+height"))
    else
      match put (bitmap.getBuffer totalBitmapSize) 0 (headers info totalBitmapSize) with
      | .error e => some (.error e)
      | .ok bitmap => (screenshotToRGB info screenshot bitmap bitmapRequest fuel).map fun bitmap =>
        bitmap >>= fun bitmap => bitmap.releaseBuffer (toInt totalBitmapSize)

/-! ## What is asked of them -/

/-- A screenshot of 2 or of 4 bytes a pixel. -/
def Accepts (info : JLScreenInfo) (screenshot : Data) : Prop :=
  screenshot.getSize = 2 * info.pixelCount ∨ screenshot.getSize = 4 * info.pixelCount

/-- A screenshot was converted, pixel by pixel. -/
structure Converted (info : JLScreenInfo) (screenshot : Data) (q : RGBRequest)
    (d : Data) : Prop where
  size : d.getSize = info.pixelCount * q.bytesPerPixel + q.offset.toNat
  pixels : ∃ dataSize,
    (dataSize = 2 ∨ dataSize = 4) ∧ screenshot.getSize = dataSize * info.pixelCount ∧
    ∀ i j, i < info.width.toNat → j < info.height.toNat →
      q.convert dataSize (leNat (slice screenshot.getData (dataSize *
        ((if q.invert then info.height.toNat - 1 - j else j) * info.width.toNat + i)) dataSize)) =
      .ok (slice d.getData
        (q.offset.toNat + q.bytesPerPixel * (j * info.width.toNat + i)) q.bytesPerPixel)

/-- A bitmap with headers that fit its bytes. -/
structure BitmapConverted (info : JLScreenInfo) (screenshot d : Data) : Prop where
  rgb : Converted info screenshot bitmapRequest d
  magic : d.getData.take 2 = ascii "BM"
  fileSize : leNat (slice d.getData 2 4) = d.getData.length
  offBits : leNat (slice d.getData 10 4) = getBitmapHeadersSize
  infoSize : leNat (slice d.getData 14 4) = infoHeaderSize
  width : leNat (slice d.getData 18 4) = info.width.toNat
  height : leNat (slice d.getData 22 4) = info.height.toNat
  bitCount : leNat (slice d.getData 28 2) = 32
  imageSize : leNat (slice d.getData 34 4) = (d.getData.drop getBitmapHeadersSize).length

/-- A call returns ; it accepts what it should and converts it, and throws otherwise. -/
def Exact (accepts : Prop) (converted : Data → Prop)
    (call : Data → ℕ → Option (Except Error Data)) : Prop :=
  ∀ buffer, ∃ fuel r, call buffer fuel = some r ∧
    ((accepts ∧ ∃ d, r = .ok d ∧ converted d) ∨
      (¬accepts ∧ ∃ e, r = .error e ∧ ∀ what, e ≠ .fault what))

/-- `ScreenshotToRGB` does what it should, whatever the buffer is. -/
def RGBExact (info : JLScreenInfo) (screenshot : Data) (q : RGBRequest) : Prop :=
  Exact (Accepts info screenshot) (Converted info screenshot q) fun buffer =>
    screenshotToRGB info screenshot buffer q

/-- `ScreenshotToBitmap` does what it should, whatever the bitmap was. -/
def BitmapExact (info : JLScreenInfo) (screenshot : Data) : Prop :=
  Exact (Accepts info screenshot) (BitmapConverted info screenshot) fun bitmap =>
    screenshotToBitmap info screenshot bitmap

/-! ## The size of a pixel -/

section DataSize

variable {size pixelCount dataSize : ℕ}

/-- Where the loop stops. -/
theorem dataSize_spec {s : ℕ} {r : Except Error ℕ}
    (h : Loop.Ends (dataSizeTurn size pixelCount) s r) :
    ∃ dataSize, r = .ok dataSize ∧ s ≤ dataSize ∧ size ≤ dataSize * pixelCount ∧
      (dataSize = s ∨ (dataSize - 1) * pixelCount < size) := by
  refine h.rec_on ?_ ?_ ?_
  · intro s e hturn
    cases hturn
  · intro s a hturn
    unfold dataSizeTurn at hturn
    split at hturn
    · cases hturn
    · rename_i hle
      obtain rfl : s = a := by injection hturn with hturn; injection hturn
      exact ⟨s, rfl, le_rfl, Nat.le_of_not_lt hle, .inl rfl⟩
  · rintro s s' r hturn ⟨d, rfl, hs, hsize, hlast⟩
    unfold dataSizeTurn at hturn
    split at hturn
    · rename_i hlt
      obtain rfl : s + 1 = s' := by injection hturn with hturn; injection hturn
      refine ⟨d, rfl, by omega, hsize, .inr ?_⟩
      rcases hlast with rfl | hlast
      · exact hlt
      · exact hlast
    · cases hturn

/-- The loop stops if there are pixels, or nothing to find. -/
theorem dataSize_ends (h : pixelCount ≠ 0 ∨ size = 0) (s : ℕ) :
    ∃ dataSize, Loop.Ends (dataSizeTurn size pixelCount) s (.ok dataSize) := by
  refine Loop.ends_of_measure (I := fun _ => True) (fun d => size - d * pixelCount)
    (fun d _ => ?_) trivial
  by_cases hlt : d * pixelCount < size
  · have hpos : 0 < pixelCount := Nat.pos_of_ne_zero (h.resolve_right (by omega))
    refine .inr ⟨d + 1, by rw [dataSizeTurn, if_pos hlt], trivial, ?_⟩
    rw [Nat.succ_mul]
    omega
  · exact .inl ⟨d, by rw [dataSizeTurn, if_neg hlt]⟩

/-- It does not if there are no pixels. -/
theorem not_dataSize_ends (hsize : size ≠ 0) (s : ℕ) (r : Except Error ℕ) :
    ¬Loop.Ends (dataSizeTurn size 0) s r := by
  refine Loop.not_ends (I := fun _ => True) (fun d _ => ⟨d + 1, ?_, trivial⟩) trivial
  rw [dataSizeTurn, if_pos (by omega)]

/-- A size that is right is found. -/
theorem dataSize_of_accepts {c : ℕ} (hc : c = 2 ∨ c = 4) (hsize : size = c * pixelCount)
    (h : Loop.Ends (dataSizeTurn size pixelCount) 2 (.ok dataSize)) :
    (dataSize = 2 ∨ dataSize = 4) ∧ size = dataSize * pixelCount := by
  obtain ⟨d, hd, hle, hsize', hlast⟩ := dataSize_spec h
  obtain rfl := Except.ok.inj hd
  rcases Nat.eq_zero_or_pos pixelCount with rfl | hpos
  · have h2 : dataSize = 2 := hlast.resolve_right (by omega)
    exact ⟨.inl h2, by omega⟩
  · have hcd : c ≤ dataSize := Nat.le_of_mul_le_mul_right (hsize ▸ hsize') hpos
    have hdc : dataSize ≤ c := by
      rcases hlast with rfl | hlast
      · omega
      · have := Nat.lt_of_mul_lt_mul_right (hsize ▸ hlast)
        omega
    obtain rfl := Nat.le_antisymm hcd hdc
    exact ⟨hc, hsize⟩

end DataSize

/-! ## The pixels -/

section Pixels

variable {info : JLScreenInfo} {screenshot buffer d : Data} {q : RGBRequest} {dataSize i j : ℕ}

theorem getOffset_eq (invert : Bool) (hi : i < info.width.toNat) (hj : j < info.height.toNat) :
    getOffset info invert i j =
      (if invert then info.height.toNat - 1 - j else j) * info.width.toNat + i := by
  cases invert with
  | false => rfl
  | true =>
    obtain ⟨k, hk⟩ : ∃ k, info.height.toNat = j + 1 + k := ⟨info.height.toNat - (j + 1), by omega⟩
    have hrow : info.height.toNat - 1 - j = k := by omega
    have hcount : info.pixelCount =
        info.width.toNat * j + info.width.toNat + k * info.width.toNat := by
      rw [JLScreenInfo.pixelCount, hk, Nat.mul_add, Nat.mul_add, Nat.mul_one, Nat.mul_comm k]
    rw [getOffset, if_pos rfl, if_pos rfl, hrow, hcount]
    omega

/-- What becomes of a pixel. -/
def pixel (q : RGBRequest) (dataSize value : ℕ) : Bytes :=
  if dataSize = 2 then q.pixel16 value else q.pixel32 value

theorem convert_eq (h : dataSize = 2 ∨ dataSize = 4) (value : ℕ) :
    q.convert dataSize value = .ok (pixel q dataSize value) := by
  rcases h with rfl | rfl <;> rfl

theorem length_pixel16 (value : ℕ) : (q.pixel16 value).length = q.bytesPerPixel := by
  unfold RGBRequest.pixel16 RGBRequest.bytesPerPixel
  split <;> rfl

theorem length_pixel32 (value : ℕ) : (q.pixel32 value).length = q.bytesPerPixel := by
  unfold RGBRequest.pixel32 RGBRequest.bytesPerPixel
  split <;> rfl

theorem length_convert {value : ℕ} {bs : Bytes} (h : q.convert dataSize value = .ok bs) :
    bs.length = q.bytesPerPixel := by
  unfold RGBRequest.convert at h
  split at h
  · rw [← Except.ok.inj h, length_pixel16]
  · split at h
    · rw [← Except.ok.inj h, length_pixel32]
    · cases h

/-- The number of a pixel of the screenshot, by which it is found. -/
theorem getOffset_lt (invert : Bool) (hi : i < info.width.toNat) (hj : j < info.height.toNat) :
    getOffset info invert i j < info.pixelCount := by
  rw [getOffset_eq invert hi hj, JLScreenInfo.pixelCount, Nat.mul_comm info.width.toNat]
  refine place_lt hi ?_
  split <;> omega

/-- A pixel is read where it is, as long as its number is an `int`. -/
theorem readPixel_eq (hsize : screenshot.getSize = dataSize * info.pixelCount)
    (hint : info.pixelCount ≤ 2 ^ 31) (hi : i < info.width.toNat) (hj : j < info.height.toNat) :
    readPixel screenshot dataSize (toInt (getOffset info q.invert i j)) =
      .ok (leNat (slice screenshot.getData (dataSize * getOffset info q.invert i j) dataSize)) := by
  have hlt := getOffset_lt q.invert hi hj
  have hin : dataSize * (getOffset info q.invert i j + 1) ≤ dataSize * info.pixelCount :=
    Nat.mul_le_mul_left _ hlt
  have hread : ¬((getOffset info q.invert i j : ℤ) < 0 ∨
      screenshot.getSize < dataSize * ((getOffset info q.invert i j : ℤ).toNat + 1)) := by
    rw [Int.toNat_natCast, hsize]
    omega
  rw [toInt_of_lt (by omega), readPixel, if_neg hread, Int.toNat_natCast]

/-- What is written for a place. -/
def placeBytes (info : JLScreenInfo) (screenshot : Data) (q : RGBRequest) (dataSize : ℕ)
    (p : ℕ × ℕ) :
    Bytes :=
  pixel q dataSize
    (leNat (slice screenshot.getData (dataSize * getOffset info q.invert p.1 p.2) dataSize))

theorem length_placeBytes (info : JLScreenInfo) (screenshot : Data) (q : RGBRequest)
    (h : dataSize = 2 ∨ dataSize = 4) (p : ℕ × ℕ) :
    (placeBytes info screenshot q dataSize p).length = q.bytesPerPixel :=
  length_convert (convert_eq h _)

/-- The loops write pixel behind pixel. -/
theorem foldlM_putPixel (h : dataSize = 2 ∨ dataSize = 4)
    (hsize : screenshot.getSize = dataSize * info.pixelCount) (hint : info.pixelCount ≤ 2 ^ 31) :
    ∀ (ps : List (ℕ × ℕ)) (buffer : Data) (write : ℕ), buffer.external = false →
      (∀ p ∈ ps, p.1 < info.width.toNat ∧ p.2 < info.height.toNat) →
      write + q.bytesPerPixel * ps.length ≤ buffer.getBufSize →
      ps.foldlM (putPixel info screenshot q dataSize) (buffer, write) =
        .ok (buffer.write write (ps.flatMap (placeBytes info screenshot q dataSize)),
          write + q.bytesPerPixel * ps.length)
  | [], buffer, write, _, _, _ => by
    rw [List.flatMap_nil, Data.write_nil]
    rfl
  | (i, j) :: ps, buffer, write, hown, hps, hroom => by
    obtain ⟨⟨hi, hj⟩, hps⟩ := List.forall_mem_cons.mp hps
    have hlen := length_placeBytes info screenshot q h (i, j)
    have htail := length_flatMap_of_forall (l := ps) fun p _ =>
      length_placeBytes info screenshot q h p
    rw [List.length_cons, Nat.mul_succ] at hroom
    have hput : putPixel info screenshot q dataSize (buffer, write) (i, j) =
        .ok (buffer.write write (placeBytes info screenshot q dataSize (i, j)),
          write + q.bytesPerPixel) := by
      rw [putPixel, readPixel_eq hsize hint hi hj]
      change (q.convert dataSize _ >>= fun pixel => put buffer write pixel >>= fun buffer =>
        Except.ok (buffer, write + q.bytesPerPixel)) = _
      rw [convert_eq h]
      change (put buffer write (placeBytes info screenshot q dataSize (i, j)) >>= fun buffer =>
        Except.ok (buffer, write + q.bytesPerPixel)) = _
      rw [put, if_neg (by rw [hlen]; omega)]
      rfl
    have hwrite :=
      @Data.write_write buffer hown write (placeBytes info screenshot q dataSize (i, j))
      (ps.flatMap (placeBytes info screenshot q dataSize)) (by rw [hlen, htail]; omega)
    rw [hlen] at hwrite
    rw [List.foldlM_cons, hput]
    refine (foldlM_putPixel h hsize hint ps _ _ (by exact hown) hps
      (by rw [Data.getBufSize_write]; omega)).trans ?_
    rw [hwrite, List.flatMap_cons, List.length_cons, Nat.mul_succ, Nat.add_assoc,
      Nat.add_comm q.bytesPerPixel]

/-- A pixel that is written has room. -/
theorem putPixel_ok {write : ℕ} {p : ℕ × ℕ} {s : Data × ℕ}
    (h : putPixel info screenshot q dataSize (buffer, write) p = .ok s) :
    ∃ bs, bs.length = q.bytesPerPixel ∧ s = (buffer.write write bs, write + q.bytesPerPixel) ∧
      write + bs.length ≤ buffer.getBufSize := by
  obtain ⟨i, j⟩ := p
  rw [putPixel] at h
  obtain ⟨value, -, h⟩ := bind_eq_ok.mp h
  obtain ⟨bs, hconvert, h⟩ := bind_eq_ok.mp h
  obtain ⟨buffer', hput, h⟩ := bind_eq_ok.mp h
  unfold put at hput
  split at hput
  · cases hput
  · rename_i hroom
    refine ⟨bs, length_convert hconvert, ?_, Nat.le_of_not_lt hroom⟩
    rw [← Except.ok.inj h, ← Except.ok.inj hput]

/-- If the loops come to their end, they have written as much behind
the pointer, and had the room. -/
theorem foldlM_putPixel_ok {ps : List (ℕ × ℕ)} {write : ℕ} {s : Data × ℕ}
    (hown : buffer.external = false)
    (h : ps.foldlM (putPixel info screenshot q dataSize) (buffer, write) = .ok s) :
    ∃ out, out.length = q.bytesPerPixel * ps.length ∧ s.1 = buffer.write write out ∧
      (out = [] ∨ write + out.length ≤ buffer.getBufSize) := by
  induction ps generalizing buffer write with
  | nil =>
    rw [← Except.ok.inj h]
    exact ⟨[], rfl, (Data.write_nil _).symm, .inl rfl⟩
  | cons p ps ih =>
    rw [List.foldlM_cons] at h
    obtain ⟨s₁, hput, h⟩ := bind_eq_ok.mp h
    obtain ⟨bs, hlen, rfl, hroom⟩ := putPixel_ok hput
    obtain ⟨out, hout, hs, hin⟩ := @ih (buffer.write write bs) _ hown h
    rw [Data.getBufSize_write] at hin
    have hall : write + bs.length + out.length ≤ buffer.getBufSize := by
      rcases hin with rfl | hin
      · rwa [List.length_nil]
      · rwa [hlen]
    refine ⟨bs ++ out, ?_, ?_, .inr ?_⟩
    · rw [List.length_append, hlen, hout, List.length_cons, Nat.mul_succ, Nat.add_comm]
    · rw [hs, ← hlen, Data.write_write hown hall]
    · rwa [List.length_append, ← Nat.add_assoc]

/-- All the pixels. -/
def pixelBytes (info : JLScreenInfo) (screenshot : Data) (q : RGBRequest) (dataSize : ℕ) : Bytes :=
  (grid info.width.toNat info.height.toNat).flatMap (placeBytes info screenshot q dataSize)

theorem length_grid_info (info : JLScreenInfo) :
    (grid info.width.toNat info.height.toNat).length = info.pixelCount := by
  rw [length_grid, Nat.mul_comm]
  rfl

theorem length_pixelBytes (info : JLScreenInfo) (screenshot : Data) (q : RGBRequest)
    (h : dataSize = 2 ∨ dataSize = 4) :
    (pixelBytes info screenshot q dataSize).length = q.bytesPerPixel * info.pixelCount := by
  rw [pixelBytes, length_flatMap_of_forall fun p _ => length_placeBytes info screenshot q h p,
    length_grid_info]

theorem bytesPerPixel_pos (q : RGBRequest) : 0 < q.bytesPerPixel := by
  unfold RGBRequest.bytesPerPixel
  split <;> decide

end Pixels

/-! ## A conversion -/

section Convert

variable {info : JLScreenInfo} {screenshot buffer d : Data} {q : RGBRequest} {dataSize : ℕ}

/-- The size of the result fits an `int`. -/
def Fits (info : JLScreenInfo) (q : RGBRequest) : Prop :=
  info.pixelCount * q.bytesPerPixel + q.offset.toNat < 2 ^ 31

theorem totalBufferSize_eq (h : Fits info q) :
    totalBufferSize info q = info.pixelCount * q.bytesPerPixel + q.offset.toNat :=
  Nat.mod_eq_of_lt (h.trans (by decide))

theorem external_of_releaseBuffer {n : ℤ} (h : buffer.releaseBuffer n = .ok d) :
    d.external = false := by
  unfold Data.releaseBuffer at h
  split at h
  · cases h
  split at h
  · cases h
  · rename_i hext
    split at h
    · split at h
      · split at h
        · cases h
        · rw [← Except.ok.inj h]
          simpa using hext
      · rw [← Except.ok.inj h]
        simpa using hext
    · cases h

/-- What a conversion leaves in the buffer. -/
theorem convertPixels_eq (h : dataSize = 2 ∨ dataSize = 4)
    (hsize : screenshot.getSize = dataSize * info.pixelCount) (hfit : Fits info q) (buffer : Data) :
    ∃ d, convertPixels info screenshot buffer q dataSize = .ok d ∧ d.external = false ∧
      d.getData = (buffer.getBuffer (totalBufferSize info q)).buffer.take q.offset.toNat ++
        pixelBytes info screenshot q dataSize := by
  have htotal := totalBufferSize_eq hfit
  have hpos := bytesPerPixel_pos q
  have hlen := length_pixelBytes info screenshot q h
  rw [Nat.mul_comm] at hlen
  have hint : info.pixelCount ≤ 2 ^ 31 := by
    have hle := Nat.le_mul_of_pos_right info.pixelCount hpos
    unfold Fits at hfit
    omega
  have hroom := Data.le_getBufSize_getBuffer (d := buffer) (n := totalBufferSize info q)
  have hfold := foldlM_putPixel h hsize hint (q := q) (grid info.width.toNat info.height.toNat)
    (buffer.getBuffer (totalBufferSize info q)) q.offset.toNat
    Data.external_getBuffer (fun p hp => mem_grid hp) (by
      rw [length_grid_info, Nat.mul_comm]
      omega)
  obtain ⟨d, hrelease, hdata⟩ := @Data.releaseBuffer_write buffer
    (totalBufferSize info q) q.offset.toNat (pixelBytes info screenshot q dataSize)
    (by rw [hlen, htotal, Nat.add_comm])
  have hend : q.offset.toNat + (pixelBytes info screenshot q dataSize).length =
      totalBufferSize info q := by
    rw [hlen, htotal, Nat.add_comm]
  have hsmall : ¬screenshot.getSize < info.pixelCount * dataSize := by
    rw [hsize, Nat.mul_comm]
    exact lt_irrefl _
  have hkind : ¬(dataSize ≠ 2 ∧ dataSize ≠ 4) := by omega
  have hlast : toInt (totalBufferSize info q) =
      (q.offset.toNat + (pixelBytes info screenshot q dataSize).length : ℕ) := by
    rw [hend, toInt_of_lt (htotal.trans_lt hfit)]
  refine ⟨d, ?_, external_of_releaseBuffer hrelease, hdata⟩
  rw [convertPixels, if_neg hsmall, if_neg hkind, hfold, hlast]
  exact hrelease

/-- Whatever a conversion that returns has written, it was released by the `int`. -/
theorem convertPixels_ok (h : convertPixels info screenshot buffer q dataSize = .ok d) :
    ∃ out, out.length = q.bytesPerPixel * info.pixelCount ∧
      ((buffer.getBuffer (totalBufferSize info q)).write q.offset.toNat out).releaseBuffer
        (toInt (totalBufferSize info q)) = .ok d := by
  unfold convertPixels at h
  split at h
  · cases h
  split at h
  · cases h
  · obtain ⟨⟨written, write⟩, hfold, hrelease⟩ := bind_eq_ok.mp h
    obtain ⟨out, hlen, hs, -⟩ := foldlM_putPixel_ok Data.external_getBuffer hfold
    rw [length_grid_info] at hlen
    refine ⟨out, hlen, ?_⟩
    rw [← hs]
    exact hrelease

/-- Other screenshots are refused. -/
theorem convertPixels_error (buffer : Data) (q : RGBRequest) (hnot : ¬Accepts info screenshot)
    (hsize : screenshot.getSize ≤ dataSize * info.pixelCount) :
    ∃ e, convertPixels info screenshot buffer q dataSize = .error e ∧ ∀ what, e ≠ .fault what := by
  unfold convertPixels
  split
  · exact ⟨_, rfl, fun _ h => by cases h⟩
  · rename_i hsmall
    rw [if_pos]
    · exact ⟨_, rfl, fun _ h => by cases h⟩
    · have heq : screenshot.getSize = dataSize * info.pixelCount := by
        rw [Nat.mul_comm] at hsmall
        omega
      constructor
      · rintro rfl
        exact hnot (.inl heq)
      · rintro rfl
        exact hnot (.inr heq)

/-- The pixels of what a conversion leaves. -/
theorem converted_of_getData (h : dataSize = 2 ∨ dataSize = 4)
    (hsize : screenshot.getSize = dataSize * info.pixelCount) {front : Bytes}
    (hfront : front.length = q.offset.toNat)
    (hdata : d.getData = front ++ pixelBytes info screenshot q dataSize) :
    Converted info screenshot q d where
  size := by
    have hlen := length_pixelBytes info screenshot q h
    have hall : d.getData.length = info.pixelCount * q.bytesPerPixel + q.offset.toNat := by
      rw [hdata, List.length_append, hfront, hlen, Nat.mul_comm, Nat.add_comm]
    exact (Data.length_getData d).symm.trans hall
  pixels := by
    refine ⟨dataSize, h, hsize, fun i j hi hj => ?_⟩
    have hplace := getElem?_grid hi hj
    have hslice := slice_flatMap (fun p _ => length_placeBytes info screenshot q h p) hplace
    have hskip : slice d.getData (q.offset.toNat + q.bytesPerPixel * (j * info.width.toNat + i))
        q.bytesPerPixel = slice (pixelBytes info screenshot q dataSize)
          (q.bytesPerPixel * (j * info.width.toNat + i)) q.bytesPerPixel := by
      rw [hdata, slice, slice, List.drop_append, hfront, Nat.add_sub_cancel_left,
        List.drop_eq_nil_of_le (by rw [hfront]; exact Nat.le_add_right _ _), List.nil_append]
    rw [hskip, pixelBytes, hslice, convert_eq h, placeBytes, getOffset_eq q.invert hi hj]

end Convert

/-! ## `ScreenshotToRGB` -/

section RGBExact

variable {info : JLScreenInfo} {screenshot buffer d : Data} {q : RGBRequest} {r : Except Error Data}

theorem screenshotToRGB_iff (buffer : Data) (hdepth : q.depth = 24 ∨ q.depth = 32) :
    (∃ fuel, screenshotToRGB info screenshot buffer q fuel = some r) ↔
      ∃ x, Loop.Ends (dataSizeTurn screenshot.getSize info.pixelCount) 2 x ∧
        r = x >>= convertPixels info screenshot buffer q := by
  have hok : ¬(q.depth ≠ 24 ∧ q.depth ≠ 32) := by omega
  constructor
  · rintro ⟨fuel, h⟩
    rw [screenshotToRGB, if_neg hok] at h
    obtain ⟨x, hx, rfl⟩ := Option.map_eq_some_iff.mp h
    exact ⟨x, ⟨fuel, hx⟩, rfl⟩
  · rintro ⟨x, ⟨fuel, hx⟩, rfl⟩
    exact ⟨fuel, by rw [screenshotToRGB, if_neg hok, hx]; rfl⟩

/-- A call that returns has found something, or had nothing to look for. -/
theorem pixelCount_of_returns (hdepth : q.depth = 24 ∨ q.depth = 32) {fuel : ℕ}
    (h : screenshotToRGB info screenshot buffer q fuel = some r) :
    info.pixelCount ≠ 0 ∨ screenshot.getSize = 0 := by
  obtain ⟨x, hx, -⟩ := (screenshotToRGB_iff buffer hdepth).mp ⟨fuel, h⟩
  by_contra hnot
  obtain ⟨hcount, hsize⟩ := not_or.mp hnot
  rw [not_not.mp hcount] at hx
  exact not_dataSize_ends hsize 2 x hx

/-- What was released by a call that returns a result. -/
theorem releaseBuffer_of_returns (hdepth : q.depth = 24 ∨ q.depth = 32) {fuel : ℕ}
    (h : screenshotToRGB info screenshot buffer q fuel = some (.ok d)) :
    ∃ out, out.length = q.bytesPerPixel * info.pixelCount ∧
      ((buffer.getBuffer (totalBufferSize info q)).write q.offset.toNat out).releaseBuffer
        (toInt (totalBufferSize info q)) = .ok d := by
  obtain ⟨x, -, hbind⟩ := (screenshotToRGB_iff buffer hdepth).mp ⟨fuel, h⟩
  obtain ⟨dataSize, -, hconvert⟩ := bind_eq_ok.mp hbind.symm
  exact convertPixels_ok hconvert

/-- A screenshot that is accepted is converted behind what is in front of the offset. -/
theorem returns_of_accepts (hdepth : q.depth = 24 ∨ q.depth = 32)
    (hcount : info.pixelCount ≠ 0 ∨ screenshot.getSize = 0) (haccepts : Accepts info screenshot)
    (hfit : Fits info q) (buffer : Data) :
    ∃ fuel d out,
      screenshotToRGB info screenshot buffer q fuel = some (.ok d) ∧ d.external = false ∧
      d.getData = (buffer.getBuffer (totalBufferSize info q)).buffer.take q.offset.toNat ++ out ∧
      Converted info screenshot q d := by
  obtain ⟨dataSize, hends⟩ := dataSize_ends hcount 2
  obtain ⟨hkind, hsize⟩ : (dataSize = 2 ∨ dataSize = 4) ∧
      screenshot.getSize = dataSize * info.pixelCount := by
    rcases haccepts with haccepts | haccepts
    · exact dataSize_of_accepts (.inl rfl) haccepts hends
    · exact dataSize_of_accepts (.inr rfl) haccepts hends
  obtain ⟨d, hconvert, hown, hdata⟩ := convertPixels_eq hkind hsize hfit buffer
  obtain ⟨fuel, hreturns⟩ := (screenshotToRGB_iff buffer hdepth).mpr
    ⟨.ok dataSize, hends, hconvert.symm⟩
  have hroom := Data.le_getBufSize_getBuffer (d := buffer) (n := totalBufferSize info q)
  have hfront : ((buffer.getBuffer (totalBufferSize info q)).buffer.take q.offset.toNat).length =
      q.offset.toNat := by
    rw [List.length_take, Data.length_buffer Data.external_getBuffer]
    rw [totalBufferSize_eq hfit] at hroom ⊢
    omega
  exact ⟨fuel, d, _, hreturns, hown, hdata, converted_of_getData hkind hsize hfront hdata⟩

/-- Any other is refused. -/
theorem returns_of_not_accepts (hdepth : q.depth = 24 ∨ q.depth = 32)
    (hcount : info.pixelCount ≠ 0 ∨ screenshot.getSize = 0) (hnot : ¬Accepts info screenshot)
    (buffer : Data) :
    ∃ fuel e, screenshotToRGB info screenshot buffer q fuel = some (.error e) ∧
      ∀ what, e ≠ .fault what := by
  obtain ⟨dataSize, hends⟩ := dataSize_ends hcount 2
  obtain ⟨d, hd, -, hsize, -⟩ := dataSize_spec hends
  obtain rfl := Except.ok.inj hd
  obtain ⟨e, herror, hfault⟩ := convertPixels_error buffer q hnot hsize
  obtain ⟨fuel, hreturns⟩ := (screenshotToRGB_iff buffer hdepth).mpr
    ⟨.ok dataSize, hends, herror.symm⟩
  exact ⟨fuel, e, hreturns, hfault⟩

/-! ### Sizes that are no `int` -/

/-- An object without a block. -/
def blank : Data :=
  .new (-1) 0 0

theorem buffer_getBuffer_blank (n : ℕ) :
    (blank.getBuffer n).buffer = List.replicate (n + 1024) 0 := by
  have hn : (if n = 0 then blank.dataSize else n) = n := by
    split
    · rename_i h
      exact h.symm
    · rfl
  have hp : blank.prependFor 0 = 0x100 := rfl
  have hg : blank.Grows n 0 := .inl (by
    rw [hp]
    exact Nat.lt_add_left n (by decide))
  have hwanted : blank.wanted n 0 = n + (1024 + 0x100) := by
    rw [Data.wanted, hp]
    exact Nat.max_eq_left (by simp [blank, Data.new])
  obtain ⟨hmem, hstart, -, -⟩ := Data.makeSpace_of_grows hg
  rw [Data.newbuf, hwanted, if_neg (by simp [blank, Data.new]),
    Data.getData_of_dataSize_eq_zero (by rfl), splice_nil] at hmem
  have hlen : n + (1024 + 0x100) - 0x100 = n + 1024 := by omega
  rw [Data.getBuffer, hn, Data.buffer, hmem, hstart, hp, List.drop_replicate, hlen]

/-- The index that is found has a byte other than zero, unless it is 0. -/
theorem lastNonZero_spec (bs : Bytes) : ∀ n, Data.lastNonZero bs n = 0 ∨
    bs.getD (Data.lastNonZero bs n) 0 ≠ 0
  | 0 => .inl rfl
  | n + 1 => by
    unfold Data.lastNonZero
    split
    · exact lastNonZero_spec bs n
    · rename_i h
      exact .inr h

/-- A size from `2 ^ 31` on is not what the result has. -/
theorem getSize_ne_of_releaseBuffer {out : Bytes} {pos n : ℕ} (hbig : 2 ^ 31 ≤ pos + out.length)
    (h : ((blank.getBuffer n).write pos out).releaseBuffer (toInt n) = .ok d) :
    d.getSize ≠ pos + out.length := by
  have hown : ((blank.getBuffer n).write pos out).external = false := by
    rw [Data.external_write, Data.external_getBuffer]
  have hbuf : ((blank.getBuffer n).write pos out).buffer =
      splice (List.replicate (n + 1024) 0) pos out := by
    rw [Data.buffer_write Data.external_getBuffer, buffer_getBuffer_blank]
  have hlen : ((blank.getBuffer n).write pos out).getBufSize = n + 1024 := by
    rw [← Data.length_buffer hown, hbuf, length_splice, List.length_replicate]
  have hint := toInt_lt n
  rcases lt_or_ge (toInt n) 0 with hneg | hnonneg
  · by_cases hone : toInt n = -1
    · rw [hone, Data.releaseBuffer_neg_one hown (by omega)] at h
      obtain rfl := Except.ok.inj h
      intro heq
      rw [Data.getSize, Data.dataSize_resize] at heq
      rcases lastNonZero_spec ((blank.getBuffer n).write pos out).buffer
        (((blank.getBuffer n).write pos out).getBufSize - 1) with hzero | hbyte
      · omega
      · -- everything behind the pixels is zero
        refine hbyte ?_
        rw [heq, hbuf, List.getD_eq_getElem?_getD]
        by_cases hin : pos + out.length < n + 1024
        · rw [getElem?_splice _ _ _ (by rwa [List.length_replicate]), if_neg (by omega),
            List.getElem?_replicate, if_pos hin]
          rfl
        · rw [List.getElem?_eq_none (by rw [length_splice, List.length_replicate]; omega)]
          rfl
    · rw [Data.releaseBuffer_neg hneg hone] at h
      cases h
  · obtain ⟨m, hm⟩ := Int.eq_ofNat_of_zero_le hnonneg
    rw [hm] at h hint
    by_cases hle : m ≤ ((blank.getBuffer n).write pos out).getBufSize
    · rw [Data.releaseBuffer_of_le hown hle] at h
      obtain rfl := Except.ok.inj h
      rw [Data.getSize, Data.dataSize_resize]
      omega
    · rw [Data.releaseBuffer_of_lt hown (by omega)] at h
      cases h

/-- When `ScreenshotToRGB` does what it should. -/
theorem rgbExact_iff (hdepth : q.depth = 24 ∨ q.depth = 32) : RGBExact info screenshot q ↔
    (info.pixelCount ≠ 0 ∨ screenshot.getSize = 0) ∧ (Accepts info screenshot → Fits info q) := by
  constructor
  · intro h
    obtain ⟨fuel, r, hreturns, hresult⟩ := h blank
    refine ⟨pixelCount_of_returns hdepth hreturns, fun haccepts => ?_⟩
    rcases hresult with ⟨-, d, rfl, hconverted⟩ | ⟨hnot, -⟩
    · obtain ⟨out, hlen, hrelease⟩ := releaseBuffer_of_returns hdepth hreturns
      have hsize : q.offset.toNat + out.length =
          info.pixelCount * q.bytesPerPixel + q.offset.toNat := by
        rw [hlen, Nat.mul_comm, Nat.add_comm]
      by_contra hbig
      refine getSize_ne_of_releaseBuffer ?_ hrelease (hconverted.size.trans hsize.symm)
      rw [hsize]
      exact Nat.le_of_not_lt hbig
    · exact absurd haccepts hnot
  · rintro ⟨hcount, hfit⟩ buffer
    by_cases haccepts : Accepts info screenshot
    · obtain ⟨fuel, d, out, hreturns, -, -, hconverted⟩ :=
        returns_of_accepts hdepth hcount haccepts (hfit haccepts) buffer
      exact ⟨fuel, .ok d, hreturns, .inl ⟨haccepts, d, rfl, hconverted⟩⟩
    · obtain ⟨fuel, e, hreturns, hfault⟩ := returns_of_not_accepts hdepth hcount haccepts buffer
      exact ⟨fuel, .error e, hreturns, .inr ⟨haccepts, e, rfl, hfault⟩⟩

end RGBExact

/-! ## `ScreenshotToBitmap` -/

section BitmapExact

variable {info : JLScreenInfo} {screenshot bitmap d : Data} {total : ℕ}

theorem length_headers (info : JLScreenInfo) (total : ℕ) : (headers info total).length = 54 := by
  simp [headers, ascii]

/-- The size of the whole bitmap, as `ScreenshotToRGB` has it. -/
theorem size_bitmapRequest (info : JLScreenInfo) :
    info.pixelCount * bitmapRequest.bytesPerPixel + bitmapRequest.offset.toNat =
    info.pixelCount * 4 + 54 :=
  rfl

/-- What the headers say of the bytes they are in front of. -/
theorem bitmapConverted_of_getData {out : Bytes} (hrgb : Converted info screenshot bitmapRequest d)
    (htotal : total = 54 + info.pixelCount * 4) (hfit : total < 2 ^ 31)
    (hdata : d.getData = headers info total ++ out) : BitmapConverted info screenshot d := by
  have hlen : d.getData.length = total := by
    have hsize := hrgb.size
    rw [size_bitmapRequest, Data.getSize, ← Data.length_getData] at hsize
    omega
  have hwidth := info.width.toNat_lt
  have hheight := info.height.toNat_lt
  have himage : (d.getData.drop getBitmapHeadersSize).length = 4 * info.pixelCount := by
    rw [List.length_drop, hlen]
    change total - 54 = _
    omega
  have hfield {pos n v : ℕ} (hslice : slice (headers info total ++ out) pos n = leBytes n v)
      (hlt : v < 256 ^ n) : leNat (slice d.getData pos n) = v := by
    rw [hdata, hslice, leNat_leBytes_of_lt hlt]
  exact
    { rgb := hrgb
      magic := by rw [hdata]; rfl
      fileSize := (hfield rfl (by omega)).trans hlen.symm
      offBits := hfield rfl (by decide)
      infoSize := hfield rfl (by decide)
      width := hfield rfl (by omega)
      height := hfield rfl (by omega)
      bitCount := hfield rfl (by decide)
      imageSize := (hfield rfl (by omega)).trans himage.symm }

/-- The buffer with the headers is not asked for anew, so that they stay in it. -/
theorem headers_of_getBuffer (info : JLScreenInfo) (bitmap : Data) (h : 54 ≤ total) :
    put (bitmap.getBuffer total) 0 (headers info total) =
      .ok ((bitmap.getBuffer total).write 0 (headers info total)) ∧
    (((bitmap.getBuffer total).write 0 (headers info total)).getBuffer total).buffer.take 54 =
      headers info total := by
  have hroom := Data.le_getBufSize_getBuffer (d := bitmap) (n := total)
  have hlen := length_headers info total
  obtain ⟨m, hm, hroomy⟩ := Data.roomy_getBuffer bitmap total
  have hsame : ((bitmap.getBuffer total).write 0 (headers info total)).getBuffer total =
      (bitmap.getBuffer total).write 0 (headers info total) := by
    rw [Data.getBuffer, if_neg (by omega)]
    exact Data.makeSpace_of_roomy (by rw [Data.external_write, Data.external_getBuffer])
      (hroomy.write _ _) hm
  constructor
  · rw [put, if_neg (by omega)]
  · have htake := @take_splice_add _ (bitmap.getBuffer total).buffer 0
      (headers info total) (by rw [Data.length_buffer Data.external_getBuffer]; omega)
    rw [Nat.zero_add, hlen, List.take_zero, List.nil_append] at htake
    rw [hsame, Data.buffer_write Data.external_getBuffer, htake]

theorem fits_bitmapRequest : Fits info bitmapRequest ↔ info.pixelCount * 4 + 54 < 2 ^ 31 := by
  rw [Fits, size_bitmapRequest]

/-- A call, up to where `ScreenshotToRGB` is called. -/
theorem screenshotToBitmap_eq (hint : ¬2 ^ 31 ≤ info.pixelCount * 4)
    (hsmall : ¬screenshot.getSize < info.pixelCount * 2) (htotal : total = 54 + info.pixelCount * 4)
    (bitmap : Data) (fuel : ℕ) :
    screenshotToBitmap info screenshot bitmap fuel =
      (screenshotToRGB info screenshot ((bitmap.getBuffer total).write 0 (headers info total))
        bitmapRequest fuel).map fun bitmap => bitmap >>= fun bitmap =>
          bitmap.releaseBuffer (toInt total) := by
  have hput := (headers_of_getBuffer info bitmap (show 54 ≤ total by omega)).1
  have hsize : getTotalBitmapSize info = .ok total := by
    rw [getTotalBitmapSize, if_neg hint, htotal]
    rfl
  rw [screenshotToBitmap, hsize]
  dsimp only
  rw [if_neg hsmall, hput]

theorem screenshotToBitmap_of_overflow (h : 2 ^ 31 ≤ info.pixelCount * 4) (fuel : ℕ) :
    screenshotToBitmap info screenshot bitmap fuel =
    some (.error (.fault "GetTotalBitmapSize")) := by
  have hsize : getTotalBitmapSize info = .error (.fault "GetTotalBitmapSize") := if_pos h
  rw [screenshotToBitmap, hsize]

theorem screenshotToBitmap_of_small (hint : ¬2 ^ 31 ≤ info.pixelCount * 4)
    (h : screenshot.getSize < info.pixelCount * 2) (fuel : ℕ) :
    screenshotToBitmap info screenshot bitmap fuel =
      some (.error (.error "Screenshot data size is too small for given width+height")) := by
  have hsize : getTotalBitmapSize info =
      .ok (fileHeaderSize + infoHeaderSize + info.pixelCount * 4) := if_neg hint
  rw [screenshotToBitmap, hsize]
  dsimp only
  rw [if_pos h]

theorem depth_bitmapRequest : bitmapRequest.depth = 24 ∨ bitmapRequest.depth = 32 :=
  .inr rfl

theorem not_small_of_accepts (h : Accepts info screenshot) :
    ¬screenshot.getSize < info.pixelCount * 2 := by
  rcases h with h | h <;> omega

/-- What a bitmap that is made shows of the sizes. -/
theorem bitmapFits_of_exact (h : BitmapExact info screenshot) : info.pixelCount * 4 < 2 ^ 31 ∧
    (info.pixelCount ≠ 0 ∨ screenshot.getSize = 0) ∧
    (Accepts info screenshot → info.pixelCount * 4 + 54 < 2 ^ 31) := by
  obtain ⟨fuel, r, hreturns, hresult⟩ := h blank
  dsimp only at hreturns
  have hint : ¬2 ^ 31 ≤ info.pixelCount * 4 := by
    intro hnot
    rw [screenshotToBitmap_of_overflow hnot] at hreturns
    obtain rfl := Option.some.inj hreturns
    rcases hresult with ⟨-, d, hd, -⟩ | ⟨-, e, he, hfault⟩
    · cases hd
    · exact hfault _ (Except.error.inj he).symm
  refine ⟨Nat.lt_of_not_le hint, ?_, fun haccepts => ?_⟩
  · by_cases hsmall : screenshot.getSize < info.pixelCount * 2
    · exact .inl (by omega)
    · rw [screenshotToBitmap_eq hint hsmall rfl] at hreturns
      obtain ⟨x, hx, -⟩ := Option.map_eq_some_iff.mp hreturns
      exact pixelCount_of_returns depth_bitmapRequest hx
  · rcases hresult with ⟨-, d, rfl, -⟩ | ⟨hnot, -⟩
    · rw [screenshotToBitmap_eq hint (not_small_of_accepts haccepts) rfl] at hreturns
      obtain ⟨x, hx, hrelease⟩ := Option.map_eq_some_iff.mp hreturns
      obtain ⟨d', rfl, -⟩ := bind_eq_ok.mp hrelease
      obtain ⟨out, -, hrelease⟩ := releaseBuffer_of_returns depth_bitmapRequest hx
      by_contra hnot
      -- so close above `2 ^ 31` the size is a negative `int` other than -1
      have hsize : totalBufferSize info bitmapRequest = info.pixelCount * 4 + 54 := by
        rw [totalBufferSize, size_bitmapRequest]
        omega
      have hneg := toInt_neg (n := info.pixelCount * 4 + 54) (Nat.le_of_not_lt hnot) (by omega)
      rw [hsize, hneg, Data.releaseBuffer_neg (by omega) (by omega)] at hrelease
      cases hrelease
    · exact absurd haccepts hnot

/-- A bitmap is made of a screenshot that is accepted. -/
theorem bitmap_of_accepts (hcount : info.pixelCount ≠ 0 ∨ screenshot.getSize = 0)
    (haccepts : Accepts info screenshot) (hfit : info.pixelCount * 4 + 54 < 2 ^ 31)
    (bitmap : Data) :
    ∃ fuel d, screenshotToBitmap info screenshot bitmap fuel = some (.ok d) ∧
      BitmapConverted info screenshot d := by
  obtain ⟨total, htotal⟩ : ∃ total, total = 54 + info.pixelCount * 4 := ⟨_, rfl⟩
  have hlt : total < 2 ^ 31 := by omega
  obtain ⟨-, hheaders⟩ := headers_of_getBuffer info bitmap (show 54 ≤ total by omega)
  obtain ⟨fuel, d, out, hreturns, hown, hdata, hconverted⟩ :=
    returns_of_accepts depth_bitmapRequest hcount
    haccepts (fits_bitmapRequest.mpr hfit) ((bitmap.getBuffer total).write 0 (headers info total))
  have hsize : totalBufferSize info bitmapRequest = total := by
    rw [totalBufferSize_eq (fits_bitmapRequest.mpr hfit), size_bitmapRequest]
    omega
  have hdsize : d.dataSize = total := by
    have hgetSize := hconverted.size
    rw [size_bitmapRequest, Data.getSize] at hgetSize
    omega
  rw [hsize] at hdata
  have hall : d.getData = headers info total ++ out := hdata.trans (congrArg (· ++ out) hheaders)
  have hroom : total ≤ d.getBufSize := hdsize ▸ Data.dataSize_le_getBufSize hown
  have hsame : (d.resize total (Data.inBlock_of_le_getBufSize (by simp [hown]) hroom)) = d :=
    Data.ext rfl rfl hdsize.symm rfl rfl rfl
  have hrelease := Data.releaseBuffer_of_le hown hroom
  rw [hsame] at hrelease
  have hbind : ((.ok d : Except Error Data) >>= fun bitmap => bitmap.releaseBuffer (toInt total)) =
      .ok d := by
    rw [toInt_of_lt hlt]
    exact hrelease
  refine ⟨fuel, d, ?_, bitmapConverted_of_getData hconverted htotal hlt hall⟩
  rw [screenshotToBitmap_eq (by omega) (not_small_of_accepts haccepts) htotal, hreturns,
    Option.map_some, hbind]

/-- Any other screenshot is refused. -/
theorem bitmap_of_not_accepts (hint : ¬2 ^ 31 ≤ info.pixelCount * 4)
    (hcount : info.pixelCount ≠ 0 ∨ screenshot.getSize = 0) (hnot : ¬Accepts info screenshot)
    (bitmap : Data) :
    ∃ fuel e, screenshotToBitmap info screenshot bitmap fuel = some (.error e) ∧
      ∀ what, e ≠ .fault what := by
  by_cases hsmall : screenshot.getSize < info.pixelCount * 2
  · exact ⟨0, _, screenshotToBitmap_of_small hint hsmall 0, fun _ h => by cases h⟩
  · obtain ⟨fuel, e, hreturns, hfault⟩ := returns_of_not_accepts depth_bitmapRequest hcount hnot
      ((bitmap.getBuffer (54 + info.pixelCount * 4)).write 0
        (headers info (54 + info.pixelCount * 4)))
    refine ⟨fuel, e, ?_, hfault⟩
    rw [screenshotToBitmap_eq hint hsmall rfl, hreturns]
    rfl

/-- When `ScreenshotToBitmap` does what it should. -/
theorem bitmapExact_iff : BitmapExact info screenshot ↔ info.pixelCount * 4 < 2 ^ 31 ∧
    (info.pixelCount ≠ 0 ∨ screenshot.getSize = 0) ∧
    (Accepts info screenshot → info.pixelCount * 4 + 54 < 2 ^ 31) := by
  refine ⟨bitmapFits_of_exact, ?_⟩
  rintro ⟨hint, hcount, hfit⟩ bitmap
  by_cases haccepts : Accepts info screenshot
  · obtain ⟨fuel, d, hreturns, hconverted⟩ :=
      bitmap_of_accepts hcount haccepts (hfit haccepts) bitmap
    exact ⟨fuel, .ok d, hreturns, .inl ⟨haccepts, d, rfl, hconverted⟩⟩
  · obtain ⟨fuel, e, hreturns, hfault⟩ :=
      bitmap_of_not_accepts (Nat.not_le.mpr hint) hcount haccepts bitmap
    exact ⟨fuel, .error e, hreturns, .inr ⟨haccepts, e, rfl, hfault⟩⟩

end BitmapExact

/-- When the screenshots of a screen are converted as they should be, to either format. -/
theorem exact_iff (info : JLScreenInfo) (screenshot : Data) :
    (∀ q : RGBRequest, q.depth = 24 ∨ q.depth = 32 → (RGBExact info screenshot q ↔
      (info.pixelCount ≠ 0 ∨ screenshot.getSize = 0) ∧ (Accepts info screenshot →
        info.pixelCount * q.bytesPerPixel + q.offset.toNat < 2 ^ 31))) ∧
    (BitmapExact info screenshot ↔ info.pixelCount * 4 < 2 ^ 31 ∧
      (info.pixelCount ≠ 0 ∨ screenshot.getSize = 0) ∧
      (Accepts info screenshot → info.pixelCount * 4 + 54 < 2 ^ 31)) :=
  ⟨fun _ hdepth => rgbExact_iff hdepth, bitmapExact_iff⟩

/-- A screen of two pixels. -/
theorem exact_two_pixels : RGBExact ⟨2, 1⟩ (.ofBytes [0xff, 0xff, 0, 0]) ⟨0, 24, false, false, 0⟩ ∧
    BitmapExact ⟨2, 1⟩ (.ofBytes [0xff, 0xff, 0, 0]) := by
  obtain ⟨hrgb, hbitmap⟩ := exact_iff ⟨2, 1⟩ (.ofBytes [0xff, 0xff, 0, 0])
  exact ⟨(hrgb _ (.inl rfl)).mpr ⟨.inl (by decide), fun _ => by decide⟩,
    hbitmap.mpr ⟨by decide, .inl (by decide), fun _ => by decide⟩⟩

/-- A screen without a pixel, and a screenshot of one byte. -/
theorem not_exact_of_no_pixels : ¬((∀ (info : JLScreenInfo) (screenshot : Data) (q : RGBRequest),
      q.depth = 24 ∨ q.depth = 32 → RGBExact info screenshot q) ∧
    ∀ (info : JLScreenInfo) (screenshot : Data), BitmapExact info screenshot) := by
  rintro ⟨h, -⟩
  obtain ⟨hcount, -⟩ := (rgbExact_iff (.inl rfl)).mp
    (h ⟨0, 1⟩ (.ofBytes [0]) ⟨0, 24, false, false, 0⟩ (.inl rfl))
  exact absurd hcount (by decide)

end Bmp

end Barry
