import Mathlib.Algebra.Group.Int.Defs
import Mathlib.Algebra.Group.Nat.Defs

/-!
# Exceptions and the widths of C++ integers

`Error` has one constructor for each exception class the modelled code throws, with
the data the class carries. `fault` is no exception : it stands for behaviour C++
leaves undefined, where the model stops.

`toInt` and `toUInt` are the conversions to `int` and `unsigned int`, both 32 bits wide,
and `hexText` is how the messages print a number under `std::hex`.
-/

namespace Barry

/-- What ends a call early. -/
inductive Error
  /-- `std::logic_error`. -/
  | logicError (what : String)
  /-- `std::length_error`, which `std::string` throws for an impossible length. -/
  | lengthError (what : String)
  /-- `std::runtime_error`. -/
  | runtimeError (what : String)
  /-- `Barry::Error`. -/
  | error (what : String)
  /-- `Barry::ConvertError`. -/
  | convertError (what : String)
  /-- `Barry::BadSize`. -/
  | badSize (packetSize dataBufSize requiredSize : ℕ)
  /-- `Barry::BadSize` with a text of its own, whose packet size is 0. -/
  | badSizeMsg (msg : String) (dataBufSize requiredSize : ℕ)
  /-- `Barry::BadPackedFormat`. -/
  | badPackedFormat (format : UInt8)
  /-- `Barry::BadData`. -/
  | badData (what : String)
  /-- `Barry::ValidationError`. -/
  | validationError (what : String)
  /-- `Barry::BadPassword`. -/
  | badPassword (what : String) (remainingTries : ℕ) (outOfTries : Bool)
  /-- `Barry::BadPacket`. -/
  | badPacket (response : UInt8) (what : String)
  /-- `Barry::SocketCloseOnOpen`. -/
  | socketCloseOnOpen (what : String)
  /-- `Barry::BackupError`. -/
  | backupError (what : String)
  /-- `Barry::RestoreError`. -/
  | restoreError (what : String)
  /-- `reuse::TarFile::TarError`, up to the text `strerror` adds. -/
  | tarError (what : String)
  /-- `Usb::Timeout`. -/
  | timeout (what : String)
  /-- `Usb::Error`. -/
  | usbError (what : String)
  /-- Undefined behaviour. -/
  | fault (what : String)
  deriving DecidableEq, Repr

/-- Conversion to a 32 bit `int`. -/
def toInt (n : ℤ) : ℤ :=
  n.bmod (2 ^ 32)

/-- Conversion to a 32 bit `unsigned int`. -/
def toUInt (n : ℕ) : ℕ :=
  n % 2 ^ 32

/-- The hexadecimal digits of a number. -/
def hexText (n : ℕ) : String :=
  String.ofList (Nat.toDigits 16 n)

theorem toInt_of_lt {n : ℕ} (h : n < 2 ^ 31) : toInt n = n := by
  unfold toInt
  rw [Int.bmod_def]
  omega

theorem toInt_lt (n : ℤ) : toInt n < 2 ^ 31 := by
  unfold toInt
  rw [Int.bmod_def]
  omega

/-- A size from `2 ^ 31` up to `2 ^ 32` does not fit an `int` : it becomes negative. -/
theorem toInt_neg {n : ℕ} (hlo : 2 ^ 31 ≤ n) (hhi : n < 2 ^ 32) : toInt n = n - 2 ^ 32 := by
  unfold toInt
  rw [Int.bmod_def]
  omega

theorem toUInt_of_lt {n : ℕ} (h : n < 2 ^ 32) : toUInt n = n :=
  Nat.mod_eq_of_lt h

/-! ## Results -/

section Results

variable {α β : Type} {x : Except Error α} {b : β}

theorem bind_eq_ok {f : α → Except Error β} : (x >>= f) = .ok b ↔ ∃ a, x = .ok a ∧ f a = .ok b := by
  cases x with
  | error e =>
    refine iff_of_false (fun h => by cases h) ?_
    rintro ⟨a, h, -⟩
    cases h
  | ok a =>
    refine ⟨fun h => ⟨a, rfl, h⟩, ?_⟩
    rintro ⟨a', h, hf⟩
    obtain rfl := Except.ok.inj h
    exact hf

theorem map_eq_ok {f : α → β} : x.map f = .ok b ↔ ∃ a, x = .ok a ∧ f a = b := by
  cases x with
  | error e =>
    refine iff_of_false (fun h => by cases h) ?_
    rintro ⟨a, h, -⟩
    cases h
  | ok a =>
    refine ⟨fun h => ⟨a, rfl, Except.ok.inj h⟩, ?_⟩
    rintro ⟨a', h, rfl⟩
    obtain rfl := Except.ok.inj h
    rfl

/-- The error of a call is passed on. -/
theorem ne_fault_of_error {e : Error} {what : String} (hx : x ≠ .error (.fault what))
    (h : x = .error e) : (.error e : Except Error β) ≠ .error (.fault what) := by
  rintro heq
  rw [h, Except.error.inj heq] at hx
  exact hx rfl

/-- A call and what follows it. -/
theorem bind_ne_fault {f : α → Except Error β} {what : String} (hx : x ≠ .error (.fault what))
    (hf : ∀ a, x = .ok a → f a ≠ .error (.fault what)) : (x >>= f) ≠ .error (.fault what) := by
  cases h : x with
  | error e => exact ne_fault_of_error hx h
  | ok a => exact hf a h

end Results

end Barry
