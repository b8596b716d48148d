import Mathlib.Data.List.Basic
import Mathlib.Data.List.Infix

/-!
# Sessions over a channel that may do anything but make up messages

A sender opens sessions, each with a number, a header and items. A receiver takes the start of any
session for a new beginning, and an item if it is the next one of the session it is in. Whatever the
channel loses, repeats, delays or exchanges, the receiver has the header of a session that was
opened and the first items of that session (`Holds.receive`), also when other sessions are opened
(`Holds.mono`).
-/

namespace Barry

variable {ν η α : Type*}

/-- A message of a session. The items are counted from 1. -/
inductive Numbered (ν η α : Type*)
  | start (n : ν) (header : η)
  | item (n : ν) (k : ℕ) (a : α)

/-- What a receiver has : the session it is in, if it is in one. -/
abbrev Received (ν η α : Type*) := Option (ν × η × List α)

namespace Numbered

/-- The receiver takes a message, or passes it over. -/
def receive [DecidableEq ν] : Received ν η α → Numbered ν η α → Received ν η α
  | _, start n header => some (n, header, [])
  | some (n, header, items), item m k a =>
    if m = n ∧ k = items.length + 1 then some (n, header, items ++ [a]) else some (n, header, items)
  | none, item _ _ _ => none

/-- The messages of a session. -/
def messages (n : ν) (header : η) (items : List α) : List (Numbered ν η α) :=
  start n header :: items.mapIdx fun i a => item n (i + 1) a

/-- A message that some session has. -/
def Sent (opened : ν → η → List α → Prop) : Numbered ν η α → Prop
  | start n header => ∃ items, opened n header items
  | item n k a => ∃ header items, opened n header items ∧ items[k - 1]? = some a ∧ 0 < k

end Numbered

/-- The receiver has the beginning of a session that was opened. -/
def Holds (opened : ν → η → List α → Prop) : Received ν η α → Prop
  | none => True
  | some (n, header, items) => ∃ all, opened n header all ∧ items <+: all

variable {opened opened' : ν → η → List α → Prop} {r : Received ν η α}

/-- Sessions that are opened later do not matter. -/
theorem Holds.mono (h : Holds opened r) (hmono : ∀ n header items, opened n header items →
    opened' n header items) : Holds opened' r := by
  match r, h with
  | none, _ => trivial
  | some (n, header, items), ⟨all, hopen, hprefix⟩ => exact ⟨all, hmono n header all hopen, hprefix⟩

section Receive

variable [DecidableEq ν]

/-- What a message of a session leaves. -/
theorem Holds.receive (h : Holds opened r) (hunique : ∀ n h h' l l', opened n h l → opened n h' l' →
    h = h' ∧ l = l') {m : Numbered ν η α} (hm : m.Sent opened) :
    Holds opened (Numbered.receive r m) := by
  match r, m with
  | _, .start n header =>
    obtain ⟨items, hopen⟩ := hm
    exact ⟨items, hopen, List.nil_prefix⟩
  | none, .item _ _ _ => trivial
  | some (n, header, items), .item m k a =>
    rw [Numbered.receive]
    split
    · rename_i hnext
      obtain ⟨rfl, rfl⟩ := hnext
      obtain ⟨all, hopen, hprefix⟩ := h
      obtain ⟨header', all', hopen', ha, -⟩ := hm
      obtain ⟨rfl, rfl⟩ := hunique m _ _ _ _ hopen hopen'
      refine ⟨all, hopen, ?_⟩
      -- the item is the one behind the prefix
      obtain ⟨rest, rfl⟩ := hprefix
      rw [Nat.add_sub_cancel, List.getElem?_append_right (Nat.le_refl _), Nat.sub_self] at ha
      obtain ⟨b, rest, rfl⟩ := List.exists_cons_of_ne_nil (l := rest) (by rintro rfl; cases ha)
      obtain rfl : b = a := Option.some.inj ha
      exact ⟨rest, by simp⟩
    · exact h

end Receive

end Barry
