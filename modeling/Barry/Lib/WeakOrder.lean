import Mathlib.Order.Lattice
import Mathlib.Order.RelClasses

/-!
# Weak orders from components

A comparison that sorting asks for is a strict weak order. It is one if it is asymmetric and
connected (`WeakOrder`), and both are kept when one comparison decides what the other one leaves
open (`thenLess`), when lists are compared item by item (`vectorLess`), and when a key of each value
is compared (`comap`).
-/

namespace Barry

variable {α β : Type}

/-- Less in one direction only, and with any value between them a difference to that value. -/
structure WeakOrder (less : α → α → Bool) : Prop where
  asymm : ∀ a b, less a b = true → less b a = false
  conn : ∀ a b c, less a c = true → less a b = true ∨ less b c = true

namespace WeakOrder

variable {less : α → α → Bool} {a b c : α}

theorem isStrictWeakOrder (h : WeakOrder less) :
    IsStrictWeakOrder α fun a b => less a b = true :=
  haveI : Std.Asymm fun a b => less a b = true :=
    ⟨fun a b hab => Bool.eq_false_iff.mp (h.asymm a b hab)⟩
  haveI : IsOrderConnected α fun a b => less a b = true := ⟨h.conn⟩
  isStrictWeakOrder_of_isOrderConnected

/-- A key is compared. -/
theorem comap (h : WeakOrder less) (key : β → α) : WeakOrder fun a b => less (key a) (key b) :=
  ⟨fun a b => h.asymm (key a) (key b), fun a b c => h.conn (key a) (key b) (key c)⟩

theorem of_linearOrder [LinearOrder α] : WeakOrder fun a b : α => decide (a < b) where
  asymm a b hab := decide_eq_false (of_decide_eq_true hab).not_gt
  conn a b c hac := by
    rcases lt_or_ge a b with hab | hba
    · exact .inl (decide_eq_true hab)
    · exact .inr (decide_eq_true (hba.trans_lt (of_decide_eq_true hac)))

/-! ## What is left open -/

theorem asymm_step (h : WeakOrder less) {p q : Bool} (hrest : p = true → q = false)
    (hab : (less a b || (!less b a && p)) = true) : (less b a || (!less a b && q)) = false := by
  cases hba : less b a with
  | true => simp [hba, h.asymm b a hba] at hab
  | false =>
    cases hless : less a b with
    | true => rfl
    | false =>
      rw [hba, hless] at hab
      exact hrest hab

theorem conn_step (h : WeakOrder less) {p q r : Bool} (hrest : p = true → q = true ∨ r = true)
    (hac : (less a c || (!less c a && p)) = true) :
    (less a b || (!less b a && q)) = true ∨ (less b c || (!less c b && r)) = true := by
  simp only [Bool.or_eq_true, Bool.and_eq_true, Bool.not_eq_true'] at hac ⊢
  rcases hac with hac | ⟨hca, hp⟩
  · exact (h.conn a b c hac).imp .inl .inl
  · by_cases hab : less a b = true
    · exact .inl (.inl hab)
    by_cases hbc : less b c = true
    · exact .inr (.inl hbc)
    -- no difference at all is found between the three
    have hba : less b a = false := Bool.eq_false_iff.mpr fun hba =>
      (h.conn b c a hba).elim hbc (Bool.eq_false_iff.mp hca)
    have hcb : less c b = false := Bool.eq_false_iff.mpr fun hcb =>
      (h.conn c a b hcb).elim (Bool.eq_false_iff.mp hca) hab
    exact (hrest hp).imp (fun hq => .inr ⟨hba, hq⟩) fun hr => .inr ⟨hcb, hr⟩

end WeakOrder

/-! ## One comparison after the other -/

/-- The second comparison decides where the first one finds no difference. -/
def thenLess (less rest : α → α → Bool) (a b : α) : Bool :=
  less a b || (!less b a && rest a b)

/-- Comparisons one after the other. -/
def lexLess (fields : List (α → α → Bool)) : α → α → Bool :=
  fields.foldr thenLess fun _ _ => false

theorem WeakOrder.thenLess {less rest : α → α → Bool} (h : WeakOrder less)
    (hrest : WeakOrder rest) :
    WeakOrder (Barry.thenLess less rest) :=
  ⟨fun a b => h.asymm_step (hrest.asymm a b), fun a b c => h.conn_step (hrest.conn a b c)⟩

theorem WeakOrder.lexLess {fields : List (α → α → Bool)} (h : ∀ less ∈ fields, WeakOrder less) :
    WeakOrder (Barry.lexLess fields) := by
  induction fields with
  | nil => exact ⟨nofun, nofun⟩
  | cons less fields ih =>
    exact (h less List.mem_cons_self).thenLess (ih fun l hl => h l (List.mem_cons_of_mem _ hl))

/-- Where none of them finds a difference the other way round, any of them decides. -/
theorem lexLess_eq_any {fields : List (α → α → Bool)} {a b : α}
    (h : ∀ less ∈ fields, less b a = false) :
    lexLess fields a b = fields.any fun less => less a b := by
  induction fields with
  | nil => rfl
  | cons less fields ih =>
    have hrest := ih fun l hl => h l (List.mem_cons_of_mem _ hl)
    rw [lexLess] at hrest
    rw [lexLess, List.foldr_cons, thenLess, hrest, h less List.mem_cons_self, List.any_cons]
    rfl

/-! ## Lists -/

/-- `std::lexicographical_compare`. -/
def vectorLess (less : α → α → Bool) : List α → List α → Bool
  | _, [] => false
  | [], _ :: _ => true
  | a :: as, b :: bs => less a b || (!less b a && vectorLess less as bs)

/-- Lists of items that are compared weakly are compared weakly. -/
theorem WeakOrder.vectorLess {less : α → α → Bool} (h : WeakOrder less) :
    WeakOrder (Barry.vectorLess less) where
  asymm as := by
    induction as with
    | nil => exact fun bs _ => by cases bs <;> rfl
    | cons a as ih =>
      rintro (_ | ⟨b, bs⟩) hab
      · cases hab
      · exact h.asymm_step (ih bs) hab
  conn as := by
    induction as with
    | nil =>
      rintro (_ | ⟨b, bs⟩) cs hac
      · exact .inr hac
      · exact .inl rfl
    | cons a as ih =>
      rintro (_ | ⟨b, bs⟩) (_ | ⟨c, cs⟩) hac
      · cases hac
      · exact .inr rfl
      · cases hac
      · exact h.conn_step (ih bs cs) hac

end Barry
