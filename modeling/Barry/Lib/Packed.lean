import Barry.Lib.Bytes

/-!
# Loops over packed fields

A buffer of packed fields is read field by field : a parser of one field takes a position to the
next one, maybe with a value. Reads are checked against the buffer, and `none` is a read outside of
it. A loop ends, since each field is ahead of the next one.
-/

namespace Barry

/-! ## Checked reads -/

/-- The `n` bytes from a position on. -/
def readAt (buf : Bytes) (pos n : ℕ) : Option Bytes :=
  if pos + n ≤ buf.length then some (slice buf pos n) else none

/-- The number they denote, low byte first. -/
def readNat (buf : Bytes) (pos n : ℕ) : Option ℕ :=
  (readAt buf pos n).map leNat

variable {buf before rest : Bytes} {pos n : ℕ}

theorem readAt_of_le (h : pos + n ≤ buf.length) : readAt buf pos n = some (slice buf pos n) :=
  if_pos h

theorem readNat_of_le (h : pos + n ≤ buf.length) :
    readNat buf pos n = some (leNat (slice buf pos n)) := by
  rw [readNat, readAt_of_le h, Option.map_some]

/-- The part behind some bytes. -/
theorem readAt_append (before m rest : Bytes) (hpos : pos = before.length) (hn : n = m.length) :
    readAt (before ++ (m ++ rest)) pos n = some m := by
  rw [hpos, hn, readAt_of_le, slice_middle]
  rw [List.length_append, List.length_append]
  omega

theorem pack_append : ∀ l r : List (ℕ × ℕ), pack (l ++ r) = pack l ++ pack r
  | [], _ => rfl
  | (width, n) :: l, r => by rw [List.cons_append, pack, pack, pack_append, List.append_assoc]

/-- A number among packed ones. -/
theorem readNat_pack (before rest : Bytes) (l : List (ℕ × ℕ)) (width n : ℕ) (r : List (ℕ × ℕ))
    (hpos : pos = before.length + (l.map Prod.fst).sum) :
    readNat (before ++ (pack (l ++ (width, n) :: r) ++ rest)) pos width =
    some (n % 256 ^ width) := by
  have hread := @readAt_append pos width (before ++ pack l) (leBytes width n) (pack r ++ rest)
    (by rw [hpos, List.length_append, length_pack]) (length_leBytes width n).symm
  rw [readNat, pack_append, pack, ← leNat_leBytes, ← Option.map_some, ← hread]
  simp only [List.append_assoc]

theorem readNat_pack_of_lt (before rest : Bytes) (l : List (ℕ × ℕ)) {width n : ℕ} (r : List (ℕ × ℕ))
    (hpos : pos = before.length + (l.map Prod.fst).sum) (hn : n < 256 ^ width) :
    readNat (before ++ (pack (l ++ (width, n) :: r) ++ rest)) pos width = some n := by
  rw [readNat_pack before rest l width n r hpos, Nat.mod_eq_of_lt hn]

/-! ## Loops -/

/-- A parser of one field, and how many bytes its loop wants beside one more. -/
structure FieldParser (α : Type) where
  field : Bytes → ℕ → Option (Option α × ℕ)
  margin : ℕ
  advances : ∀ {buf pos a next}, field buf pos = some (a, next) → pos < next

namespace FieldParser

variable {α ω : Type} (p : FieldParser α)

/-- The values of the fields from a position on. -/
def loop (buf : Bytes) (pos : ℕ) : Option (List α) :=
  if _hpos : pos + p.margin < buf.length then
    match _hfield : p.field buf pos with
    | none => none
    | some (a, next) => (loop buf next).map (a.toList ++ ·)
  else some []
termination_by buf.length - pos
decreasing_by
  have hnext := p.advances _hfield
  omega

variable {p}

theorem loop_of_field {a : Option α} {next : ℕ} (hpos : pos + p.margin < buf.length)
    (hfield : p.field buf pos = some (a, next)) :
    p.loop buf pos = (p.loop buf next).map (a.toList ++ ·) := by
  rw [loop, dif_pos hpos]
  split
  · rename_i hnone
    rw [hfield] at hnone
    cases hnone
  · rename_i hsome
    rw [hfield] at hsome
    cases hsome
    rfl

theorem loop_of_le (hpos : buf.length ≤ pos + p.margin) : p.loop buf pos = some [] := by
  rw [loop, dif_neg (Nat.not_lt.mpr hpos)]

section Encoded

variable {encode : ω → Bytes} {value : ω → α}
  (hfield : ∀ (before : Bytes) (w : ω) (rest : Bytes),
    p.field (before ++ (encode w ++ rest)) before.length =
      some (some (value w), before.length + (encode w).length))
include hfield

/-- The fields that were encoded come back, in order, if the loop does not stop in front of one. -/
theorem loop_flatMap_of_room (before : Bytes) (l : List ω)
    (hroom : ∀ w r, w :: r <:+ l → p.margin < ((w :: r).flatMap encode).length) :
    p.loop (before ++ l.flatMap encode) before.length = some (l.map value) := by
  induction l generalizing before with
  | nil => exact loop_of_le (by simp)
  | cons w l ih =>
    have hstep := hfield before w (l.flatMap encode)
    have hmargin := hroom w l (List.suffix_refl _)
    have hrest := ih (before ++ encode w) fun v r hr => hroom v r (hr.trans (List.suffix_cons w l))
    rw [List.length_append, List.append_assoc] at hrest
    rw [List.flatMap_cons] at hmargin ⊢
    rw [loop_of_field (by rw [List.length_append]; omega) hstep, hrest]
    rfl

theorem loop_flatMap (hmargin : p.margin = 0) (before : Bytes) (l : List ω) :
    p.loop (before ++ l.flatMap encode) before.length = some (l.map value) := by
  refine loop_flatMap_of_room hfield before l fun w r _ => ?_
  have hlt := p.advances (hfield [] w [])
  rw [hmargin, List.flatMap_cons, List.length_append]
  omega

end Encoded

/-- A loop reads inside the buffer where its fields do. -/
theorem isSome_loop
    (hfield : ∀ buf pos, pos + p.margin < buf.length → (p.field buf pos).isSome = true)
    (buf : Bytes) (pos : ℕ) : (p.loop buf pos).isSome = true := by
  by_cases hpos : pos + p.margin < buf.length
  · obtain ⟨⟨a, next⟩, hnext⟩ := Option.isSome_iff_exists.mp (hfield buf pos hpos)
    have hlt := p.advances hnext
    rw [loop_of_field hpos hnext, Option.isSome_map]
    exact isSome_loop hfield buf next
  · rw [loop_of_le (Nat.le_of_not_lt hpos)]
    rfl
termination_by buf.length - pos

end FieldParser

end Barry
