import Mathlib.Tactic.Ring
import Barry.Lib.BlockHash
import Barry.Lib.Bytes
import Barry.Lib.Lists
import Barry.Lib.Loop

/-!
# The digest of a password, a record or an object

`sha1.cc` shifts the bytes it is given into the words of a block, goes over the block when it is
full, and counts the bits in two words of 32. Nothing clears the words between two blocks : what is
left in them is shifted out by the four bytes that come next. `Sha1.digest_pieces` says that a text
in any pieces has the digest of FIPS 180, which `Fips` states, and that the context is as
`SHA1_Init` leaves it then.
-/

namespace Barry

/-! ## The standard -/

namespace Fips

/-- The working variables. -/
structure Registers where
  a : UInt32
  b : UInt32
  c : UInt32
  d : UInt32
  e : UInt32

/-- The hash values. -/
abbrev HashValue := Vector UInt32 5

/-- `ROTL`. -/
def rotl (n : UInt32) (x : UInt32) : UInt32 :=
  (x <<< n) ||| (x >>> (32 - n))

/-- `Ch`. -/
def ch (x y z : UInt32) : UInt32 :=
  (x &&& y) ^^^ (~~~x &&& z)

/-- `Parity`. -/
def parity (x y z : UInt32) : UInt32 :=
  x ^^^ y ^^^ z

/-- `Maj`. -/
def maj (x y z : UInt32) : UInt32 :=
  (x &&& y) ^^^ (x &&& z) ^^^ (y &&& z)

/-- The function of a round. -/
def f (t : ℕ) : UInt32 → UInt32 → UInt32 → UInt32 :=
  if t < 20 then ch else if t < 40 then parity else if t < 60 then maj else parity

/-- The constant of a round. -/
def k (t : ℕ) : UInt32 :=
  if t < 20 then 0x5a827999 else if t < 40 then 0x6ed9eba1 else if t < 60 then 0x8f1bbcdc
  else 0xca62c1d6

/-- A word of a block : four bytes, the first one high. -/
def word (block : Bytes) (t : ℕ) : UInt32 :=
  UInt32.ofNat (beNat (slice block (4 * t) 4))

/-- The message schedule. -/
def schedule (block : Bytes) (t : ℕ) : UInt32 :=
  if t < 16 then word block t
  else rotl 1 (schedule block (t - 3) ^^^ schedule block (t - 8) ^^^ schedule block (t - 14) ^^^
    schedule block (t - 16))
termination_by t
decreasing_by all_goals omega

/-- A round. -/
def round (block : Bytes) (t : ℕ) (r : Registers) : Registers where
  a := rotl 5 r.a + f t r.b r.c r.d + r.e + k t + schedule block t
  b := r.a
  c := rotl 30 r.b
  d := r.c
  e := r.d

/-- The working variables behind the first `t` rounds. -/
def rounds (block : Bytes) (r : Registers) : ℕ → Registers
  | 0 => r
  | t + 1 => round block t (rounds block r t)

/-- The working variables to start with. -/
def registers (h : HashValue) : Registers :=
  ⟨h[0], h[1], h[2], h[3], h[4]⟩

/-- The hash values with the working variables added. -/
def add (h : HashValue) (r : Registers) : HashValue :=
  #v[h[0] + r.a, h[1] + r.b, h[2] + r.c, h[3] + r.d, h[4] + r.e]

/-- The hash values behind a block. -/
def compress (h : HashValue) (block : Bytes) : HashValue :=
  add h (rounds block (registers h) 80)

/-- Blocks of 64 bytes. -/
def blocks : Compression HashValue UInt8 where
  size := 64
  size_pos := Nat.succ_pos 63
  compress := compress

/-- The hash values to start with. -/
def initial : HashValue :=
  #v[0x67452301, 0xefcdab89, 0x98badcfe, 0x10325476, 0xc3d2e1f0]

/-- A one, zeros up to the last 64 bits of a block, and the length in bits. -/
def pad (message : Bytes) : Bytes :=
  0x80 :: (List.replicate ((119 - message.length % 64) % 64) 0 ++ beBytes 8 (8 * message.length))

/-- The digest of a message. -/
def digest (message : Bytes) : Bytes :=
  (blocks.chain initial (message ++ pad message)).toList.flatMap fun w => beBytes 4 w.toNat

end Fips

/-! ## The code -/

/-- `SHA_CTX`, with `lenW` where `SHA1_Update` leaves it. -/
structure ShaCtx where
  H : Vector UInt32 5
  W : Vector UInt32 80
  lenW : ℕ
  sizeHi : UInt32
  sizeLo : UInt32
  lenW_lt : lenW < 64

namespace Sha1

/-- `SHA_ROT`. -/
def shaRot (x : UInt32) (n : UInt32) : UInt32 :=
  (x <<< n) ||| (x >>> (32 - n))

/-- `A` to `E`. -/
structure Locals where
  A : UInt32
  B : UInt32
  C : UInt32
  D : UInt32
  E : UInt32

/-- What one of the four loops does twenty times, with its own function and number. -/
def shaTurn (f : UInt32 → UInt32 → UInt32 → UInt32) (n : UInt32) (w : UInt32)
    (l : Locals) : Locals :=
  let TEMP := shaRot l.A 5 + f l.B l.C l.D + l.E + w + n
  { E := l.D, D := l.C, C := shaRot l.B 30, B := l.A, A := TEMP }

/-- The first loop of `shaHashBlock`, which fills the rest of `W`. -/
def shaExpand (W : Vector UInt32 80) : Vector UInt32 80 :=
  Nat.fold 64 (fun i _ W => W.set (i + 16)
    (shaRot (W[i + 16 - 3] ^^^ W[i + 16 - 8] ^^^ W[i + 16 - 14] ^^^ W[i + 16 - 16]) 1)) W

/-- The loops of `shaHashBlock` over `A` to `E`. -/
def shaLoops (W : Vector UInt32 80) (l : Locals) : Locals :=
  let l := Nat.fold 20 (fun t _ => shaTurn (fun B C D => ((C ^^^ D) &&& B) ^^^ D) 0x5a827999 W[t]) l
  let l := Nat.fold 20 (fun t _ => shaTurn (fun B C D => B ^^^ C ^^^ D) 0x6ed9eba1 W[20 + t]) l
  let l := Nat.fold 20
    (fun t _ => shaTurn (fun B C D => (B &&& C) ||| (D &&& (B ||| C))) 0x8f1bbcdc W[40 + t]) l
  Nat.fold 20 (fun t _ => shaTurn (fun B C D => B ^^^ C ^^^ D) 0xca62c1d6 W[60 + t]) l

/-- `shaHashBlock`, which leaves the length and the sizes alone. -/
def shaHashBlock (H : Vector UInt32 5) (W : Vector UInt32 80) :
    Vector UInt32 5 × Vector UInt32 80 :=
  let W := shaExpand W
  let l := shaLoops W ⟨H[0], H[1], H[2], H[3], H[4]⟩
  (#v[H[0] + l.A, H[1] + l.B, H[2] + l.C, H[3] + l.D, H[4] + l.E], W)

/-- `SHA1_Init`. -/
def init : ShaCtx where
  H := #v[0x67452301, 0xefcdab89, 0x98badcfe, 0x10325476, 0xc3d2e1f0]
  W := Vector.replicate 80 0
  lenW := 0
  sizeHi := 0
  sizeLo := 0
  lenW_lt := Nat.succ_pos 63

/-- The words with a byte shifted into the one it is for. -/
def shiftIn (ctx : ShaCtx) (byte : UInt8) : Vector UInt32 80 :=
  have := ctx.lenW_lt
  ctx.W.set (ctx.lenW / 4) (ctx.W[ctx.lenW / 4] <<< 8 ||| byte.toUInt32)

/-- A turn of the loop of `SHA1_Update` : the byte, the block if it is full, and the size. -/
def updateByte (ctx : ShaCtx) (byte : UInt8) : ShaCtx :=
  let W := shiftIn ctx byte
  let ctx := if h : (ctx.lenW + 1) % 64 = 0 then
      let (H, W) := shaHashBlock ctx.H W
      { ctx with H, W, lenW := 0, lenW_lt := Nat.succ_pos 63 }
    else { ctx with W, lenW := ctx.lenW + 1, lenW_lt := by have := ctx.lenW_lt; omega }
  let sizeLo := ctx.sizeLo + 8
  { ctx with sizeLo, sizeHi := ctx.sizeHi + if sizeLo < 8 then 1 else 0 }

/-- `SHA1_Update`. -/
def update (ctx : ShaCtx) (dataIn : Bytes) : ShaCtx :=
  dataIn.foldl updateByte ctx

/-- The loop of `SHA1_Final` that fills the block up. -/
def padTurn (ctx : ShaCtx) : Except Empty (Turn ShaCtx ShaCtx) :=
  if ctx.lenW ≠ 56 then .ok (.again (update ctx [0x00])) else .ok (.leave ctx)

/-- The length in `SHA1_Final`. -/
def padlen (ctx : ShaCtx) : Bytes :=
  [((ctx.sizeHi >>> 24) &&& 255).toUInt8, ((ctx.sizeHi >>> 16) &&& 255).toUInt8,
    ((ctx.sizeHi >>> 8) &&& 255).toUInt8, ((ctx.sizeHi >>> 0) &&& 255).toUInt8,
    ((ctx.sizeLo >>> 24) &&& 255).toUInt8, ((ctx.sizeLo >>> 16) &&& 255).toUInt8,
    ((ctx.sizeLo >>> 8) &&& 255).toUInt8, ((ctx.sizeLo >>> 0) &&& 255).toUInt8]

/-- The loop of `SHA1_Final` that writes the digest, and shifts the hash values out. -/
def hashout (H : Vector UInt32 5) : Bytes :=
  (Nat.fold 20 (fun i _ (s : Bytes × Vector UInt32 5) =>
    (s.1 ++ [(s.2[i / 4] >>> 24).toUInt8], s.2.set (i / 4) (s.2[i / 4] <<< 8))) ([], H)).1

/-- `SHA1_Final` : the digest, and the context it leaves. -/
def final (fuel : ℕ) (ctx : ShaCtx) : Option (Bytes × ShaCtx) :=
  match Loop.run padTurn fuel (update ctx [0x80]) with
  | some (.ok padded) => some (hashout (update padded (padlen ctx)).H, init)
  | _ => none

/-- `SHA1`. -/
def sha1 (fuel : ℕ) (dataIn : Bytes) : Option Bytes :=
  (final fuel (update init dataIn)).map Prod.fst

/-! ## A block -/

theorem choose_eq (x y z : UInt32) : ((y ^^^ z) &&& x) ^^^ z = Fips.ch x y z := by
  apply UInt32.eq_of_toBitVec_eq
  ext i hi
  simp only [Fips.ch, UInt32.toBitVec_xor, UInt32.toBitVec_and, UInt32.toBitVec_not,
    BitVec.getElem_xor, BitVec.getElem_and, BitVec.getElem_not]
  cases x.toBitVec[i] <;> cases y.toBitVec[i] <;> cases z.toBitVec[i] <;> rfl

theorem majority_eq (x y z : UInt32) : (x &&& y) ||| (z &&& (x ||| y)) = Fips.maj x y z := by
  apply UInt32.eq_of_toBitVec_eq
  ext i hi
  simp only [Fips.maj, UInt32.toBitVec_xor, UInt32.toBitVec_and, UInt32.toBitVec_or,
    BitVec.getElem_xor, BitVec.getElem_and, BitVec.getElem_or]
  cases x.toBitVec[i] <;> cases y.toBitVec[i] <;> cases z.toBitVec[i] <;> rfl

section Block

variable {block : Bytes} {W : Vector UInt32 80}

theorem schedule_of_lt {t : ℕ} (h : t < 16) : Fips.schedule block t = Fips.word block t := by
  rw [Fips.schedule, if_pos h]

theorem schedule_of_le {t : ℕ} (h : 16 ≤ t) : Fips.schedule block t = Fips.rotl 1
    (Fips.schedule block (t - 3) ^^^ Fips.schedule block (t - 8) ^^^
      Fips.schedule block (t - 14) ^^^ Fips.schedule block (t - 16)) := by
  rw [Fips.schedule, if_neg (by omega)]

theorem getElem_shaExpand (h : ∀ t (ht : t < 16), W[t] = Fips.word block t) (t : ℕ) (ht : t < 80) :
    (shaExpand W)[t] = Fips.schedule block t := by
  -- behind `i` turns the first `16 + i` words are those of the schedule
  refine Loop.fold_induction
    (P := fun i W => ∀ t (ht : t < 80), t < 16 + i → W[t] = Fips.schedule block t)
    ?_ ?_ t ht ht
  · intro t ht hlt
    rw [h t hlt, schedule_of_lt hlt]
  · intro i hi W hW t ht hlt
    by_cases heq : i + 16 = t
    · subst heq
      rw [Vector.getElem_set_self, hW _ _ (by omega), hW _ _ (by omega), hW _ _ (by omega),
        hW _ _ (by omega), schedule_of_le (Nat.le_add_left 16 i)]
      rfl
    · rw [Vector.getElem_set_ne _ _ heq, hW t ht (by omega)]

/-- The locals as the working variables. -/
def Locals.registers (l : Locals) : Fips.Registers :=
  ⟨l.A, l.B, l.C, l.D, l.E⟩

theorem add_registers (H : Vector UInt32 5) (l : Locals) : Fips.add H l.registers =
    #v[H[0] + l.A, H[1] + l.B, H[2] + l.C, H[3] + l.D, H[4] + l.E] := rfl

/-- Twenty turns are twenty rounds. -/
theorem registers_fold {f : UInt32 → UInt32 → UInt32 → UInt32} {n : UInt32} {l : Locals}
    {r : Fips.Registers} (start : ℕ) (hstart : start + 20 ≤ 80)
    (hW : ∀ t (ht : t < 80), W[t] = Fips.schedule block t)
    (hround : ∀ i < 20, f = Fips.f (start + i) ∧ n = Fips.k (start + i))
    (hl : l.registers = Fips.rounds block r start) :
    (Nat.fold 20 (fun i hi => shaTurn f n (W[start + i])) l).registers =
      Fips.rounds block r (start + 20) := by
  refine Loop.fold_induction
    (P := fun i (l : Locals) => l.registers = Fips.rounds block r (start + i)) hl ?_
  intro i hi l hl
  obtain ⟨hf, hn⟩ := hround i hi
  rw [← Nat.add_assoc, Fips.rounds, ← hl, hW]
  simp only [shaTurn, Locals.registers, Fips.round, ← hf, ← hn]
  rw [UInt32.add_assoc _ _ n, UInt32.add_comm _ n, ← UInt32.add_assoc]
  rfl

theorem registers_shaLoops (hW : ∀ t (ht : t < 80), W[t] = Fips.schedule block t) (l : Locals) :
    (shaLoops W l).registers = Fips.rounds block l.registers 80 := by
  refine registers_fold 60 (by omega) hW ?_ (registers_fold 40 (by omega) hW ?_
    (registers_fold 20 (by omega) hW ?_ ?_))
  · intro i hi
    rw [Fips.f, Fips.k, if_neg (by omega), if_neg (by omega), if_neg (by omega), if_neg (by omega),
      if_neg (by omega), if_neg (by omega)]
    exact ⟨rfl, rfl⟩
  · intro i hi
    rw [Fips.f, Fips.k, if_neg (by omega), if_neg (by omega), if_pos (by omega), if_neg (by omega),
      if_neg (by omega), if_pos (by omega)]
    exact ⟨funext fun x => funext fun y => funext (majority_eq x y), rfl⟩
  · intro i hi
    rw [Fips.f, Fips.k, if_neg (by omega), if_pos (by omega), if_neg (by omega), if_pos (by omega)]
    exact ⟨rfl, rfl⟩
  · have hfirst := registers_fold (f := fun B C D => ((C ^^^ D) &&& B) ^^^ D) (n := 0x5a827999)
      (r := l.registers) 0 (by omega) hW (fun i hi => by
        rw [Fips.f, Fips.k, if_pos (by omega), if_pos (by omega)]
        exact ⟨funext fun x => funext fun y => funext (choose_eq x y), rfl⟩) rfl
    simpa only [Nat.zero_add] using hfirst

/-- A block with its words in `W`, whatever the other words are. -/
theorem fst_shaHashBlock (h : ∀ t (ht : t < 16), W[t] = Fips.word block t) (H : Vector UInt32 5) :
    (shaHashBlock H W).1 = Fips.compress H block := by
  have hl := registers_shaLoops (getElem_shaExpand h) ⟨H[0], H[1], H[2], H[3], H[4]⟩
  have hregisters : Fips.registers H = (Locals.mk H[0] H[1] H[2] H[3] H[4]).registers := rfl
  rw [Fips.compress, hregisters, ← hl, add_registers, shaHashBlock]

end Block

/-! ## The context -/

theorem toNat_shiftIn (w : UInt32) (b : UInt8) :
    (w <<< 8 ||| b.toUInt32).toNat = (w.toNat * 256 + b.toNat) % 2 ^ 32 := by
  have hb : b.toNat < 2 ^ 8 := b.toNat_lt
  have hw : (w.toNat * 256) % 2 ^ 32 = (w.toNat % 2 ^ 24) <<< 8 := by
    rw [Nat.shiftLeft_eq]
    omega
  rw [UInt32.toNat_or, UInt32.toNat_shiftLeft, UInt8.toNat_toUInt32,
    show (8 : UInt32).toNat % 32 = 8 from rfl, Nat.shiftLeft_eq,
    hw, ← Nat.shiftLeft_add_eq_or_of_lt hb, Nat.shiftLeft_eq]
  omega

theorem size_updateByte (hi lo : UInt32) :
    (hi + if lo + 8 < 8 then 1 else 0 : UInt32).toNat * 2 ^ 32 + (lo + 8).toNat =
      (hi.toNat * 2 ^ 32 + lo.toNat + 8) % 2 ^ 64 := by
  have hhi := hi.toNat_lt
  have hlo := lo.toNat_lt
  have hadd : (lo + 8).toNat = (lo.toNat + 8) % 2 ^ 32 := UInt32.toNat_add lo 8
  by_cases hcarry : lo + 8 < 8
  · rw [if_pos hcarry, hadd, UInt32.toNat_add, UInt32.toNat_one]
    rw [UInt32.lt_iff_toNat_lt, hadd, show (8 : UInt32).toNat = 8 from rfl] at hcarry
    omega
  · rw [if_neg hcarry, hadd, UInt32.add_zero]
    rw [UInt32.lt_iff_toNat_lt, hadd, show (8 : UInt32).toNat = 8 from rfl] at hcarry
    omega

/-- The words have the bytes of a block, each in the low bytes of its word,
above what was there before. -/
def HasBytes (W : Vector UInt32 80) (p : Bytes) : Prop :=
  ∀ i (hi : i < 16), W[i].toNat % 256 ^ min 4 (p.length - 4 * i) = beNat (slice p (4 * i) 4)

/-- What a context has of a text of `n` bytes : the hash values, what is
not hashed yet, and the size. -/
structure Reflects (ctx : ShaCtx) (s : Fips.HashValue × Bytes) (n : ℕ) : Prop where
  H : ctx.H = s.1
  lenW : ctx.lenW = s.2.length
  W : HasBytes ctx.W s.2
  size : ctx.sizeHi.toNat * 2 ^ 32 + ctx.sizeLo.toNat = 8 * n % 2 ^ 64

theorem hasBytes_nil (W : Vector UInt32 80) : HasBytes W [] := by
  intro i hi
  rw [List.length_nil, Nat.zero_sub, Nat.min_zero, pow_zero, Nat.mod_one, slice, List.drop_nil,
    List.take_nil]
  rfl

theorem HasBytes.shiftIn {ctx : ShaCtx} {p : Bytes} (h : HasBytes ctx.W p)
    (hlen : ctx.lenW = p.length) (b : UInt8) : HasBytes (shiftIn ctx b) (p ++ [b]) := by
  intro i hi
  have hlt := ctx.lenW_lt
  have hlength : (p ++ [b]).length = p.length + 1 := by
    rw [List.length_append, List.length_singleton]
  rw [hlength, Sha1.shiftIn]
  by_cases hword : ctx.lenW / 4 = i
  · -- the word the byte goes to
    subst hword
    have hdrop : slice (p ++ [b]) (4 * (ctx.lenW / 4)) 4 =
        slice p (4 * (ctx.lenW / 4)) 4 ++ [b] := by
      rw [slice, slice, List.drop_append_of_le_length (by omega),
        List.take_of_length_le
        (by simp only [List.length_append, List.length_drop, List.length_singleton]; omega),
        List.take_of_length_le (by rw [List.length_drop]; omega)]
    rw [Vector.getElem_set_self, hdrop, beNat_append_singleton, ← h _ hi, toNat_shiftIn,
      show min 4 (p.length + 1 - 4 * (ctx.lenW / 4)) =
      min 4 (p.length - 4 * (ctx.lenW / 4)) + 1 by omega]
    generalize hr : min 4 (p.length - 4 * (ctx.lenW / 4)) = r
    have hr4 : r + 1 ≤ 4 := by omega
    have hdvd : 256 ^ (r + 1) ∣ 2 ^ 32 := by
      rw [show 2 ^ 32 = 256 ^ 4 by norm_num]
      exact Nat.pow_dvd_pow 256 hr4
    have hb := b.toNat_lt
    rw [Nat.mod_mod_of_dvd _ hdvd, pow_succ', Nat.mod_mul,
      show (ctx.W[ctx.lenW / 4].toNat * 256 + b.toNat) / 256 =
      ctx.W[ctx.lenW / 4].toNat by omega]
    omega
  · rw [Vector.getElem_set_ne _ _ hword]
    by_cases hbefore : 4 * i + 4 ≤ p.length
    · have hslice : slice (p ++ [b]) (4 * i) 4 = slice p (4 * i) 4 := by
        rw [slice, slice, List.drop_append_of_le_length (by omega),
          List.take_append_of_le_length (by rw [List.length_drop]; omega)]
      rw [hslice, ← h i hi]
      congr 2
      omega
    · have hslice : slice (p ++ [b]) (4 * i) 4 = [] := by
        rw [slice, List.drop_eq_nil_of_le (by omega), List.take_nil]
      rw [hslice, show min 4 (p.length + 1 - 4 * i) = 0 by omega, pow_zero, Nat.mod_one]
      rfl

/-- A full block has its words. -/
theorem HasBytes.word {W : Vector UInt32 80} {p : Bytes} (h : HasBytes W p)
    (hp : p.length = 64) (t : ℕ) (ht : t < 16) : W[t] = Fips.word p t := by
  have hw := h t ht
  rw [hp, show min 4 (64 - 4 * t) = 4 by omega, show 256 ^ 4 = 2 ^ 32 by norm_num,
    Nat.mod_eq_of_lt W[t].toNat_lt] at hw
  rw [Fips.word, ← hw, UInt32.ofNat_toNat]

/-- A byte. -/
theorem Reflects.updateByte {ctx : ShaCtx} {s : Fips.HashValue × Bytes} {n : ℕ}
    (h : Reflects ctx s n)
    (b : UInt8) : Reflects (updateByte ctx b) (Fips.blocks.feed s b) (n + 1) := by
  have hbytes := h.W.shiftIn h.lenW b
  have hlenW := h.lenW
  have hlt := ctx.lenW_lt
  have hsize : (ctx.sizeHi + if ctx.sizeLo + 8 < 8 then 1 else 0).toNat * 2 ^ 32 +
      (ctx.sizeLo + 8).toNat = 8 * (n + 1) % 2 ^ 64 := by
    rw [size_updateByte, h.size]
    omega
  have hlength : (s.2 ++ [b]).length = s.2.length + 1 := by
    rw [List.length_append, List.length_singleton]
  by_cases hfull : (ctx.lenW + 1) % 64 = 0
  · have hblock : (s.2 ++ [b]).length = 64 := by omega
    have hfeed : Fips.blocks.feed s b = (Fips.compress s.1 (s.2 ++ [b]), []) :=
      if_pos (by rw [← hlength, hblock]; rfl)
    rw [Sha1.updateByte, dif_pos hfull, hfeed]
    exact ⟨(fst_shaHashBlock (hbytes.word hblock) ctx.H).trans (by rw [h.H]), rfl,
      hasBytes_nil _, hsize⟩
  · have hfeed : Fips.blocks.feed s b = (s.1, s.2 ++ [b]) :=
      if_neg (by rw [← hlenW]; exact fun heq => hfull (by rw [show ctx.lenW + 1 = 64 from heq]))
    rw [Sha1.updateByte, dif_neg hfull, hfeed]
    exact ⟨h.H, by rw [hlength, ← hlenW], hbytes, hsize⟩

/-- A text. -/
theorem Reflects.update {ctx : ShaCtx} {s : Fips.HashValue × Bytes} {n : ℕ} (h : Reflects ctx s n)
    (l : Bytes) : Reflects (update ctx l) (l.foldl Fips.blocks.feed s) (n + l.length) := by
  induction l generalizing ctx s n with
  | nil => exact h
  | cons b l ih =>
    rw [Sha1.update, List.foldl_cons, List.foldl_cons, List.length_cons,
      Nat.add_comm l.length 1, ← Nat.add_assoc]
    exact ih (h.updateByte b)

theorem reflects_init : Reflects init (Fips.initial, []) 0 :=
  ⟨rfl, rfl, hasBytes_nil _, rfl⟩

theorem lenW_updateByte (ctx : ShaCtx) (b : UInt8) :
    (updateByte ctx b).lenW = (ctx.lenW + 1) % 64 := by
  have := ctx.lenW_lt
  rw [updateByte]
  by_cases hfull : (ctx.lenW + 1) % 64 = 0
  · rw [dif_pos hfull, hfull]
  · rw [dif_neg hfull]
    dsimp only
    omega

theorem lenW_update (ctx : ShaCtx) (l : Bytes) :
    (update ctx l).lenW = (ctx.lenW + l.length) % 64 := by
  induction l generalizing ctx with
  | nil => exact (Nat.mod_eq_of_lt ctx.lenW_lt).symm
  | cons b l ih =>
    rw [update, List.foldl_cons, ← update, ih, lenW_updateByte, List.length_cons]
    omega

theorem update_append (ctx : ShaCtx) (l m : Bytes) :
    update ctx (l ++ m) = update (update ctx l) m :=
  List.foldl_append

/-! ## The end of a text -/

/-- The loop fills the block up to the length, with as many zeros as it takes. -/
theorem run_padTurn (ctx : ShaCtx) (fuel : ℕ) (hfuel : (120 - ctx.lenW) % 64 < fuel) :
    Loop.run padTurn fuel ctx =
    some (.ok (update ctx (List.replicate ((120 - ctx.lenW) % 64) 0))) := by
  have hlt := ctx.lenW_lt
  induction hz : (120 - ctx.lenW) % 64 generalizing ctx fuel with
  | zero =>
    obtain ⟨fuel, rfl⟩ := Nat.exists_eq_add_of_lt hfuel
    have hleave : padTurn ctx = .ok (.leave ctx) := if_neg (by omega)
    rw [Loop.run_succ_of_leave hleave]
    rfl
  | succ z ih =>
    obtain ⟨fuel, rfl⟩ := Nat.exists_eq_succ_of_ne_zero (Nat.ne_zero_of_lt hfuel)
    have hnext : (120 - (update ctx [0x00]).lenW) % 64 = z := by
      rw [lenW_update, List.length_singleton]
      omega
    have hagain : padTurn ctx = .ok (.again (update ctx [0x00])) := if_pos (by omega)
    rw [Loop.run_succ_of_again hagain, ih _ fuel (by omega) (ShaCtx.lenW_lt _) hnext,
      ← update_append]
    rfl

theorem toUInt8_shiftRight (w k : UInt32) (hk : k.toNat < 32) :
    (w >>> k).toUInt8 = UInt8.ofNat (w.toNat / 2 ^ k.toNat) := by
  rw [← UInt8.toNat_inj, UInt32.toNat_toUInt8, UInt8.toNat_ofNat', UInt32.toNat_shiftRight,
    Nat.mod_eq_of_lt hk, Nat.shiftRight_eq_div_pow]

theorem toUInt8_and (w : UInt32) : (w &&& 255).toUInt8 = w.toUInt8 := by
  rw [← UInt8.toNat_inj, UInt32.toNat_toUInt8, UInt32.toNat_toUInt8, UInt32.toNat_and,
    show (255 : UInt32).toNat = 2 ^ 8 - 1 from rfl, Nat.and_two_pow_sub_one_eq_mod, Nat.mod_mod]

theorem beBytes_four (n : ℕ) : beBytes 4 n =
    [UInt8.ofNat (n / 2 ^ 24), UInt8.ofNat (n / 2 ^ 16), UInt8.ofNat (n / 2 ^ 8),
      UInt8.ofNat n] := by
  have h : beBytes 4 n = [UInt8.ofNat (n / 256 / 256 / 256), UInt8.ofNat (n / 256 / 256),
    UInt8.ofNat (n / 256), UInt8.ofNat n] := rfl
  rw [h, Nat.div_div_eq_div_mul, Nat.div_div_eq_div_mul, Nat.div_div_eq_div_mul]
  norm_num

/-- The bytes of a word, each shifted down. -/
theorem wordBytes (w : UInt32) :
    [((w >>> 24) &&& 255).toUInt8, ((w >>> 16) &&& 255).toUInt8, ((w >>> 8) &&& 255).toUInt8,
      ((w >>> 0) &&& 255).toUInt8] = beBytes 4 w.toNat := by
  simp only [toUInt8_and]
  rw [toUInt8_shiftRight _ _ (by decide), toUInt8_shiftRight _ _ (by decide),
    toUInt8_shiftRight _ _ (by decide), toUInt8_shiftRight _ _ (by decide), beBytes_four,
    show (0 : UInt32).toNat = 0 from rfl, pow_zero, Nat.div_one]
  rfl

theorem toNat_shiftLeft_eight (w : UInt32) : (w <<< 8).toNat = w.toNat * 256 % 2 ^ 32 := by
  rw [UInt32.toNat_shiftLeft, show (8 : UInt32).toNat % 32 = 8 from rfl, Nat.shiftLeft_eq]

/-- A byte of a word, with those above it shifted out. -/
theorem getElem?_beBytes_four {w v : UInt32} {r : ℕ} (hr : r < 4)
    (hv : v.toNat = w.toNat * 256 ^ r % 2 ^ 32) :
    (beBytes 4 w.toNat)[r]? = some (v >>> 24).toUInt8 := by
  have hw := w.toNat_lt
  have hbyte : ∀ n : ℕ, v.toNat / 2 ^ 24 % 256 = n % 256 → UInt8.ofNat n = (v >>> 24).toUInt8 := by
    intro n hn
    rw [toUInt8_shiftRight _ _ (by decide),
      show (24 : UInt32).toNat = 24 from rfl, ← UInt8.toNat_inj, UInt8.toNat_ofNat',
      UInt8.toNat_ofNat', hn]
  rw [beBytes_four]
  match r, hr with
  | 0, _ => exact congrArg some (hbyte _ (by rw [hv]; omega))
  | 1, _ => exact congrArg some (hbyte _ (by rw [hv]; omega))
  | 2, _ => exact congrArg some (hbyte _ (by rw [hv]; omega))
  | 3, _ => exact congrArg some (hbyte _ (by rw [hv]; omega))

theorem padlen_eq (ctx : ShaCtx) :
    padlen ctx = beBytes 8 (ctx.sizeHi.toNat * 2 ^ 32 + ctx.sizeLo.toNat) := by
  have hlo := ctx.sizeLo.toNat_lt
  rw [show 8 = 4 + 4 from rfl, beBytes_add, show 256 ^ 4 = 2 ^ 32 by norm_num,
    ← beBytes_mod 4 (ctx.sizeHi.toNat * 2 ^ 32 + ctx.sizeLo.toNat),
    show 256 ^ 4 = 2 ^ 32 by norm_num,
    show (ctx.sizeHi.toNat * 2 ^ 32 + ctx.sizeLo.toNat) / 2 ^ 32 = ctx.sizeHi.toNat by omega,
    show (ctx.sizeHi.toNat * 2 ^ 32 + ctx.sizeLo.toNat) % 2 ^ 32 =
    ctx.sizeLo.toNat by omega, ← wordBytes, ← wordBytes]
  rfl

/-- The digest is the hash values, which are shifted out byte by byte. -/
theorem hashout_eq (H : Vector UInt32 5) :
    hashout H = H.toList.flatMap fun w => beBytes 4 w.toNat := by
  have hlength : (H.toList.flatMap fun w => beBytes 4 w.toNat).length = 20 := by
    simp
  -- behind `i` turns the first `i` bytes are written, and shifted out of their words
  have hloop := Loop.fold_induction (n := 20)
    (P := fun i (s : Bytes × Vector UInt32 5) =>
      s.1 = (H.toList.flatMap fun w => beBytes 4 w.toNat).take i ∧
        ∀ j (hj : j < 5), (s.2[j]).toNat = H[j].toNat * 256 ^ min 4 (i - 4 * j) % 2 ^ 32)
    (f := fun i _ s => (s.1 ++ [(s.2[i / 4] >>> 24).toUInt8], s.2.set (i / 4) (s.2[i / 4] <<< 8)))
    (s := ([], H)) ?_ ?_
  · rw [hashout, hloop.1, ← hlength, List.take_length]
  · refine ⟨rfl, fun j hj => ?_⟩
    rw [Nat.zero_sub, Nat.min_zero, pow_zero, Nat.mul_one, Nat.mod_eq_of_lt H[j].toNat_lt]
  · rintro i hi ⟨out, v⟩ ⟨hout, hv⟩
    have hbyte := getElem?_flatMap (l := H.toList) (f := fun w => beBytes 4 w.toNat)
      (fun w => length_beBytes 4 w.toNat) (i / 4) (Nat.mod_lt i (Nat.succ_pos 3))
    have hword : H.toList[i / 4]? = some H[i / 4] := by
      rw [Vector.getElem?_toList, Vector.getElem?_eq_getElem]
    have hshift := hv (i / 4) (by omega)
    rw [show min 4 (i - 4 * (i / 4)) = i % 4 by omega] at hshift
    rw [Nat.div_add_mod, hword, Option.bind_some,
      getElem?_beBytes_four (Nat.mod_lt i (Nat.succ_pos 3)) hshift]
      at hbyte
    refine ⟨?_, fun j hj => ?_⟩
    · rw [List.take_add_one, hbyte, hout]
      rfl
    · by_cases hj' : i / 4 = j
      · subst hj'
        rw [Vector.getElem_set_self, toNat_shiftLeft_eight, hshift,
          show min 4 (i + 1 - 4 * (i / 4)) = i % 4 + 1 by omega, Nat.mod_mul_mod, Nat.mul_assoc,
          ← pow_succ]
      · rw [Vector.getElem_set_ne _ _ hj', hv j hj]
        congr 3
        omega

/-! ## Digests -/

theorem dvd_length_pad (message : Bytes) : 64 ∣ (message ++ Fips.pad message).length := by
  rw [List.length_append, Fips.pad, List.length_cons, List.length_append, List.length_replicate,
    length_beBytes]
  omega

theorem update_pieces (ctx : ShaCtx) (pieces : List Bytes) :
    pieces.foldl update ctx = update ctx pieces.flatten := by
  induction pieces generalizing ctx with
  | nil => rfl
  | cons l pieces ih => rw [List.foldl_cons, ih, List.flatten_cons, update_append]

theorem final_update (message : Bytes) {fuel : ℕ} (hfuel : 64 ≤ fuel) :
    final fuel (update init message) = some (Fips.digest message, init) := by
  -- all that the context takes in is the message and its padding
  have hlen : padlen (update init message) = beBytes 8 (8 * message.length) := by
    rw [padlen_eq, (reflects_init.update message).size, Nat.zero_add,
      show 2 ^ 64 = 256 ^ 8 by norm_num, beBytes_mod]
  have hzeros : (120 - (update (update init message) [0x80]).lenW) % 64 =
      (119 - message.length % 64) % 64 := by
    rw [lenW_update, lenW_update, List.length_singleton, show init.lenW = 0 from rfl]
    omega
  have hrun := run_padTurn (update (update init message) [0x80]) fuel (by omega)
  have htext : update (update (update (update init message) [0x80])
      (List.replicate ((119 - message.length % 64) % 64) 0)) (beBytes 8 (8 * message.length)) =
      update init (message ++ Fips.pad message) := by
    rw [← update_append, ← update_append, ← update_append, Fips.pad]
    rfl
  have hall := (reflects_init.update (message ++ Fips.pad message)).H
  rw [Compression.foldl_feed (C := Fips.blocks) (dvd_length_pad message)] at hall
  rw [final, hrun, hzeros]
  dsimp only
  rw [hlen, htext, hashout_eq, hall]
  rfl

/-- A text in any pieces has the digest of the standard, and the context is a new one then. -/
theorem digest_pieces (pieces : List Bytes) {fuel : ℕ} (hfuel : 64 ≤ fuel) :
    final fuel (pieces.foldl update init) = some (Fips.digest pieces.flatten, init) := by
  rw [update_pieces, final_update _ hfuel]

/-- Two pieces of a text of three bytes. -/
theorem digest_pieces_abc : final 64 ([[0x61], [0x62, 0x63]].foldl update init) =
    some (Fips.digest [0x61, 0x62, 0x63], init) :=
  digest_pieces [[0x61], [0x62, 0x63]] (le_refl 64)

example : sha1 64 [0x61, 0x62, 0x63] =
    some [0xa9, 0x99, 0x3e, 0x36, 0x47, 0x06, 0x81, 0x6a, 0xba, 0x3e, 0x25,
    0x71, 0x78, 0x50, 0xc2, 0x6c, 0x9c, 0xd0, 0xd8, 0x9d] := by
  decide +kernel

end Sha1

end Barry
