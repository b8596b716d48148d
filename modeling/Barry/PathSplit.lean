import Barry.Lib.Bytes
import Mathlib.Data.List.TakeWhile

/-!
# The parts of a path

`PathSplit` of `bfuse.cc` goes over a path with two pointers and counts the slashes as it does.
Between two slashes is a token, and the level says which one it is ; from the fifth on the rest is
kept as it stands. A path that is put together of names has them as its parts again
(`PathSplit.ofPath_join`).
-/

namespace Barry

/-- `PathSplit`. -/
@[ext] structure PathSplit where
  pin : Bytes
  db : Bytes
  record : Bytes
  field : Bytes
  remainder : Bytes
  level : ℤ
  isRoot : Bool

namespace PathSplit

/-- What the constructor starts with, and leaves in a failed state. -/
def failed : PathSplit :=
  ⟨[], [], [], [], [], -1, false⟩

/-- The `switch` on the level, and whether the loop goes on behind it. `s` is the text
from the slash of the token on. -/
def setToken (p : PathSplit) (token s : Bytes) : PathSplit × Bool :=
  if p.level = 0 then ({ p with level := -1 }, false)
  else if p.level = 1 then ({ p with pin := token }, true)
  else if p.level = 2 then ({ p with db := token }, true)
  else if p.level = 3 then ({ p with record := token }, true)
  else if p.level = 4 then ({ p with field := token }, true)
  else ({ p with remainder := s }, false)

/-- The outer loop, with the text from `s` to `e` and the text from `e` on. -/
def loop (p : PathSplit) (passed : Bytes) : Bytes → PathSplit
  | [] => p
  | c :: cs =>
    let passed := passed ++ (c :: cs).takeWhile (· ≠ 47)
    let rest := (c :: cs).dropWhile (· ≠ 47)
    let p := { p with level := p.level + 1 }
    -- `s != e && (s+1) != e`
    if 2 ≤ passed.length then
      let (p, again) := p.setToken (passed.drop 1) (passed ++ rest)
      if again then loop p (rest.take 1) (rest.drop 1) else p
    else loop p (passed ++ rest.take 1) (rest.drop 1)
termination_by rest => rest.length
decreasing_by
  all_goals
    have hle := ((c :: cs).dropWhile_sublist (· ≠ 47)).length_le
    rw [List.length_drop]
    simp only [List.length_cons] at hle ⊢
    omega

/-- `PathSplit(path)`. -/
def ofPath (path : Bytes) : PathSplit :=
  if path.head? ≠ some 47 then failed
  else if path.drop 1 = [] then { failed with isRoot := true }
  else failed.loop [] path

/-- The path to a thing. -/
def join (names : List Bytes) : Bytes :=
  names.flatMap (47 :: ·)

/-- A name that a path can be put together of. -/
def Name (name : Bytes) : Prop :=
  name ≠ [] ∧ 47 ∉ name

variable {p : PathSplit} {name : Bytes} {names : List Bytes}

/-- Behind a name there is another one, or nothing. -/
theorem scan_join (hname : Name name) (names : List Bytes) :
    (name ++ join names).takeWhile (· ≠ 47) = name ∧
      (name ++ join names).dropWhile (· ≠ 47) = join names := by
  refine scan_append (fun a ha => decide_eq_true fun h => hname.2 (h ▸ ha)) ?_
  cases names with
  | nil => simp [join]
  | cons n names => simp [join]

/-- What the names of a path are taken for. -/
def tokens (p : PathSplit) : List Bytes → PathSplit
  | [] => p
  | name :: names =>
    let (p, again) := { p with level := p.level + 1 }.setToken name (join (name :: names))
    if again then tokens p names else p

/-- From a slash on, a name is a token. -/
theorem loop_join (hnames : ∀ n ∈ names, Name n) (p : PathSplit) :
    p.loop ((join names).take 1) ((join names).drop 1) = p.tokens names := by
  induction names generalizing p with
  | nil => rw [join, List.flatMap_nil, List.drop_nil, loop, tokens]
  | cons name names ih =>
    have hname := hnames name List.mem_cons_self
    obtain ⟨htake, hdrop⟩ := scan_join hname names
    obtain ⟨c, cs, hc⟩ := List.exists_cons_of_ne_nil
      (show name ++ join names ≠ [] from List.append_ne_nil_of_left_ne_nil hname.1 _)
    have hlength : 2 ≤ ([47] ++ name).length := by
      have := List.length_pos_iff.mpr hname.1
      rw [List.length_append, List.length_singleton]
      omega
    have hslash : (join (name :: names)).take 1 = [47] ∧
        (join (name :: names)).drop 1 = name ++ join names :=
      ⟨rfl, rfl⟩
    rw [hslash.1, hslash.2, tokens]
    rw [hc] at htake hdrop ⊢
    rw [loop, htake, hdrop, if_pos hlength]
    simp only [ih fun n hn => hnames n (List.mem_cons_of_mem _ hn)]
    rfl

/-- The names of a path are its tokens, from the first one on. -/
theorem ofPath_eq_tokens (hne : names ≠ []) (hnames : ∀ n ∈ names, Name n) :
    ofPath (join names) = { failed with level := 0 }.tokens names := by
  obtain ⟨a, rest, rfl⟩ := List.exists_cons_of_ne_nil hne
  have hroot : (join (a :: rest)).drop 1 ≠ [] :=
    List.append_ne_nil_of_left_ne_nil (hnames a List.mem_cons_self).1 _
  rw [ofPath, if_neg (by simp [join]), if_neg hroot, ← loop_join hnames,
    show join (a :: rest) = 47 :: (a ++ join rest) from rfl, loop]
  rfl

/-- The parts of a path are the names it was put together of. -/
theorem ofPath_join (hne : names ≠ []) (hnames : ∀ n ∈ names, Name n) : ofPath (join names) =
    ⟨names.getD 0 [], names.getD 1 [], names.getD 2 [], names.getD 3 [], join (names.drop 4),
      min names.length 5, false⟩ := by
  rw [ofPath_eq_tokens hne hnames]
  match names with
  | [] => exact absurd rfl hne
  | [a] => rfl
  | [a, b] => rfl
  | [a, b, c] => rfl
  | [a, b, c, d] => rfl
  | a :: b :: c :: d :: e :: names =>
    have hlevel : min ((a :: b :: c :: d :: e :: names).length : ℤ) 5 = 5 := by
      simp only [List.length_cons]
      omega
    rw [hlevel]
    rfl

/-- A record of a database, and what is in it. -/
theorem ofPath_join_field : ofPath (join [[97], [98], [99], [100], [101], [102]]) =
    ⟨[97], [98], [99], [100], [47, 101, 47, 102], 5, false⟩ :=
  ofPath_join (by simp) (by simp [Name])

end PathSplit

end Barry
