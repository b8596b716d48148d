import Barry.Lib.Text
import Barry.RoundTrip

/-!
# The scanner of category lists

`CategoryStr2List` (`record.cc`) goes over a string with three positions : the start of a category,
its end and the comma behind it. The end is found by a subtraction, which wraps around if the string
starts with a comma, and then the string is read at the largest position there is. `str2List` is
this scanner with every read checked, and `str2List_eq` says that it finds the categories that
`categoryStr2List` has, the parts between the commas without the blanks around them (`tokens`).
-/

namespace Barry.CategoryList

/-! ## The scanner -/

/-- `str[i]` of a constant string, which has a zero behind its last character. -/
def charAt (str : Bytes) (i : ℕ) : Except Error UInt8 :=
  if i ≤ str.length then .ok (str.getD i 0) else .error (.fault "CategoryList::CategoryStr2List")

/-- `str.find(',', pos)`, unless it is `npos`. -/
def findComma (str : Bytes) (pos : ℕ) : Option ℕ :=
  ((str.drop pos).findIdx? (· = 44)).map (pos + ·)

theorem charAt_eq_ok {str : Bytes} {i : ℕ} {c : UInt8} (h : charAt str i = .ok c) :
    i ≤ str.length ∧ c = str.getD i 0 := by
  rw [charAt] at h
  split at h
  · rename_i hle
    exact ⟨hle, (Except.ok.inj h).symm⟩
  · cases h

/-- The loop that strips the blanks at the start. The zero is none. -/
def skipBlanks (str : Bytes) (start : ℕ) : Except Error ℕ :=
  match _h : charAt str start with
  | .ok c => if c = 32 then skipBlanks str (start + 1) else .ok start
  | .error e => .error e
termination_by str.length + 1 - start
decreasing_by
  have hle := (charAt_eq_ok _h).1
  omega

/-- The loop that strips the blanks at the end. -/
def stripBlanks (str : Bytes) : ℕ → Except Error ℕ
  | 0 => .ok 0
  | last + 1 =>
    match charAt str (last + 1) with
    | .ok c => if c = 32 then stripBlanks str last else .ok (last + 1)
    | .error e => .error e

/-- The end of a category, which is `npos` if the comma is the first character. -/
def endOf (str : Bytes) : Option ℕ → Option ℕ
  | none => some (str.length - 1)
  | some 0 => none
  | some (delim + 1) => some delim

/-- A turn of the loop, up to the next start : the category, if there is one. -/
def token (str : Bytes) (start : ℕ) (last : Option ℕ) : Except Error (List Bytes) := do
  let start ← skipBlanks str start
  let last ← match last with
    | some last => stripBlanks str last
    | none => .error (.fault "CategoryList::CategoryStr2List")
  return if start ≤ last then [slice str start (last + 1 - start)] else []

theorem findComma_lt {str : Bytes} {pos delim : ℕ} (h : findComma str pos = some delim) :
    pos ≤ delim ∧ delim < str.length := by
  obtain ⟨i, hi, rfl⟩ := Option.map_eq_some_iff.mp h
  have hlt := (List.findIdx?_eq_some_iff_findIdx_eq.mp hi).1
  rw [List.length_drop] at hlt
  omega

/-- The loop, from a start on. -/
def scan (str : Bytes) (start : ℕ) : Except Error (List Bytes) :=
  match _h : findComma str start with
  | none => token str start (endOf str none)
  | some delim => do
    let found ← token str start (endOf str (some delim))
    let rest ← scan str (delim + 1)
    return found ++ rest
termination_by str.length - start
decreasing_by
  have hlt := findComma_lt _h
  omega

/-- `CategoryStr2List`. -/
def str2List (str : Bytes) : Except Error (List Bytes) :=
  if str = [] then .ok [] else scan str 0

/-! ## What it finds -/

/-- A part without the blanks around it. -/
def trim (s : Bytes) : Bytes :=
  (s.dropWhile (· = 32)).rdropWhile (· = 32)

/-- The parts between the commas, trimmed, as far as something is left of them. -/
def tokens (s : Bytes) : List Bytes :=
  ((s.splitOn 44).map trim).filter (· ≠ [])

theorem tokens_of_notMem {s : Bytes} (h : 44 ∉ s) :
    tokens s = if trim s = [] then [] else [trim s] := by
  have hsplit : s.splitOn 44 = [s] :=
    List.splitOnP_eq_singleton fun c hc => by
      simpa using fun he : c = 44 => h (he ▸ hc)
  rw [tokens, hsplit]
  by_cases hnil : trim s = [] <;> simp [hnil]

theorem tokens_append_comma (s rest : Bytes) :
    tokens (s ++ 44 :: rest) = tokens s ++ tokens rest := by
  have hsplit : (s ++ 44 :: rest).splitOn 44 = s.splitOn 44 ++ rest.splitOn 44 :=
    List.splitOnP_append_cons s rest (by simp)
  rw [tokens, hsplit, List.map_append, List.filter_append]
  rfl

section Blanks

variable {str front back : Bytes} {n : ℕ}

theorem charAt_append (front back : Bytes) :
    charAt (front ++ back) front.length = .ok (back.headD 0) := by
  rw [charAt, if_pos (by simp)]
  cases back <;> simp

/-- The blanks at the start are passed. -/
theorem skipBlanks_append (hback : back.head? ≠ some 32) : ∀ (n : ℕ) (front : Bytes),
    skipBlanks (front ++ (List.replicate n 32 ++ back)) front.length = .ok (front.length + n)
  | 0, front => by
    have hchar := charAt_append front back
    have hne : back.headD 0 ≠ 32 := by
      cases back with
      | nil => decide
      | cons c back => exact fun he => hback (congrArg some he)
    rw [List.replicate_zero, List.nil_append, skipBlanks]
    split
    · rename_i c hc
      obtain rfl := Except.ok.inj (hchar.symm.trans hc)
      exact if_neg hne
    · rename_i e he
      cases hchar.symm.trans he
  | n + 1, front => by
    have hchar := charAt_append front (List.replicate (n + 1) 32 ++ back)
    have ih := skipBlanks_append hback n (front ++ [32])
    rw [List.length_append, List.length_singleton, List.append_assoc] at ih
    rw [skipBlanks]
    split
    · rename_i c hc
      obtain rfl := Except.ok.inj (hchar.symm.trans hc)
      rw [if_pos (by simp [List.replicate_succ]), List.replicate_succ, List.cons_append,
        ← List.singleton_append, ih]
      exact congrArg Except.ok (by omega)
    · rename_i e he
      cases hchar.symm.trans he

/-- The blanks at the end are passed, up to a character that is none. -/
theorem stripBlanks_append (hne : front ≠ []) (hlast : front.getLast? ≠ some 32) :
    ∀ (n : ℕ) (back : Bytes), stripBlanks (front ++ (List.replicate n 32 ++ back))
      (front.length - 1 + n) = .ok (front.length - 1)
  | 0, back => by
    rw [List.replicate_zero, List.nil_append, Nat.add_zero]
    cases hlen : front.length - 1 with
    | zero => rfl
    | succ k =>
      have hchar : (front ++ back).getD (k + 1) 0 ≠ 32 := by
        rw [List.getLast?_eq_getElem?, hlen] at hlast
        rw [List.getD_append _ _ _ _ (by omega), List.getD_eq_getElem?_getD,
          List.getElem?_eq_getElem (by omega)]
        exact fun he => hlast (by rw [List.getElem?_eq_getElem (by omega)]; exact congrArg some he)
      rw [stripBlanks, charAt, if_pos (by rw [List.length_append]; omega)]
      exact if_neg hchar
  | n + 1, back => by
    have ih := stripBlanks_append hne hlast n (32 :: back)
    have hpos := List.length_pos_of_ne_nil hne
    have hchar : (front ++ (List.replicate (n + 1) 32 ++ back)).getD
        (front.length - 1 + n + 1) 0 = 32 := by
      rw [List.getD_append_right _ _ _ _ (by omega), List.getD_append _ _ _ _ (by simp; omega)]
      exact List.getD_replicate _ (by omega)
    rw [← Nat.add_assoc, stripBlanks, charAt,
      if_pos (by rw [List.length_append, List.length_append, List.length_replicate]; omega)]
    refine (if_pos hchar).trans ?_
    rw [← ih, List.replicate_succ', List.append_assoc, List.singleton_append]

/-- In the string the end does not fault. -/
theorem exists_stripBlanks {str : Bytes} : ∀ {last : ℕ}, last ≤ str.length →
    ∃ m ≤ last, stripBlanks str last = .ok m
  | 0, _ => ⟨0, le_rfl, rfl⟩
  | last + 1, h => by
    rw [stripBlanks, charAt, if_pos h]
    dsimp only
    split
    · obtain ⟨m, hm, hstrip⟩ := @exists_stripBlanks str last (by omega)
      exact ⟨m, hm.trans (Nat.le_succ _), hstrip⟩
    · exact ⟨last + 1, le_rfl, rfl⟩

end Blanks

/-- A part has blanks on both sides of what is left of it. -/
theorem exists_trim (s : Bytes) :
    ∃ a b, s = List.replicate a 32 ++ (trim s ++ List.replicate b 32) ∧
    (trim s ++ List.replicate b 32).head? ≠ some 32 ∧ (trim s).getLast? ≠ some 32 := by
  obtain ⟨a, hfront⟩ : ∃ a, s.takeWhile (· = 32) = List.replicate a 32 :=
    ⟨_, List.eq_replicate_of_mem fun c hc => by simpa using List.mem_takeWhile_imp hc⟩
  obtain ⟨b, hback⟩ : ∃ b, (s.dropWhile (· = 32)).rtakeWhile (· = 32) = List.replicate b 32 :=
    ⟨_, List.eq_replicate_of_mem fun c hc => by simpa using List.mem_rtakeWhile_imp hc⟩
  have hmid : trim s ++ List.replicate b 32 = s.dropWhile (· = 32) := by
    rw [← hback]
    exact List.rdropWhile_append_rtakeWhile
  refine ⟨a, b, ?_, fun hhead => ?_, fun hlast => ?_⟩
  · rw [hmid, ← hfront, List.takeWhile_append_dropWhile]
  · rw [hmid] at hhead
    have hnot := List.head?_dropWhile_not (fun c : UInt8 => decide (c = 32)) s
    rw [hhead] at hnot
    simp at hnot
  · have hne : trim s ≠ [] := by
      intro he
      rw [he] at hlast
      cases hlast
    have hnot := List.rdropWhile_last_not (fun c : UInt8 => decide (c = 32)) _ hne
    rw [List.getLast?_eq_some_getLast hne, Option.some.injEq] at hlast
    exact hnot (decide_eq_true hlast)

/-- A turn of the loop finds what is left of a part. The part is in the string from the start on, up
to the end of the string or a comma. -/
theorem token_append {front part back : Bytes} (hpos : 0 < front.length + part.length)
    (hback : back.head? ≠ some 32) :
    token (front ++ (part ++ back)) front.length (some (front.length + part.length - 1)) =
      .ok (if trim part = [] then [] else [trim part]) := by
  obtain ⟨a, b, hpart, hhead, hlast⟩ := exists_trim part
  by_cases hnil : trim part = []
  · have hblank : part = List.replicate (a + b) 32 := by
      rw [hnil, List.nil_append, List.replicate_append_replicate] at hpart
      exact hpart
    have hstart := skipBlanks_append hback (a + b) front
    rw [← hblank] at hstart
    obtain ⟨m, hm, hend⟩ := @exists_stripBlanks (front ++ (part ++ back))
      (front.length + part.length - 1) (by simp only [List.length_append]; omega)
    have hlen : part.length = a + b := by rw [hblank, List.length_replicate]
    rw [token, hstart]
    dsimp only [bind, Except.bind]
    rw [hend, if_pos hnil]
    dsimp only [pure, Except.pure]
    rw [if_neg (by omega)]
  · have hrest : (trim part ++ (List.replicate b 32 ++ back)).head? ≠ some 32 := by
      obtain ⟨c, cs, hcs⟩ := List.exists_cons_of_ne_nil hnil
      rw [hcs] at hhead ⊢
      exact hhead
    have hne : front ++ List.replicate a 32 ++ trim part ≠ [] := by simp [hnil]
    have hkept : (front ++ List.replicate a 32 ++ trim part).getLast? ≠ some 32 := by
      rwa [List.getLast?_append_of_ne_nil _ hnil]
    have hstr : front ++ (part ++ back) = front ++ (List.replicate a 32 ++
        (trim part ++ (List.replicate b 32 ++ back))) := by
      nth_rewrite 1 [hpart]
      simp only [List.append_assoc]
    have hstart := skipBlanks_append hrest a front
    have hend := stripBlanks_append hne hkept b back
    have hlen : part.length = a + ((trim part).length + b) := by
      nth_rewrite 1 [hpart]
      simp only [List.length_append, List.length_replicate]
    have hpos' := List.length_pos_of_ne_nil hnil
    simp only [List.length_append, List.length_replicate, List.append_assoc] at hend
    rw [hstr, hlen, token, hstart]
    dsimp only [bind, Except.bind]
    rw [show front.length + (a + ((trim part).length + b)) - 1 =
      front.length + (a + (trim part).length) - 1 + b by omega, hend, if_neg hnil]
    dsimp only [pure, Except.pure]
    rw [if_pos (by omega), show front.length + (a + (trim part).length) - 1 + 1 -
      (front.length + a) = (trim part).length by omega]
    have hslice :=
      slice_middle (front ++ List.replicate a 32) (trim part) (List.replicate b 32 ++ back)
    rw [List.length_append, List.length_replicate, List.append_assoc] at hslice
    rw [hslice]

theorem findComma_append {front part : Bytes} (h : 44 ∉ part) (rest : Bytes) :
    findComma (front ++ (part ++ 44 :: rest)) front.length = some (front.length + part.length) := by
  have hnone : part.findIdx? (· = 44) = none :=
    List.findIdx?_eq_none_iff.mpr fun c hc => decide_eq_false fun he => h (he ▸ hc)
  rw [findComma, List.drop_left, List.findIdx?_append, hnone]
  simp [List.findIdx?_cons]

theorem findComma_eq_none {front part : Bytes} (h : 44 ∉ part) :
    findComma (front ++ part) front.length = none := by
  have hnone : part.findIdx? (· = 44) = none :=
    List.findIdx?_eq_none_iff.mpr fun c hc => decide_eq_false fun he => h (he ▸ hc)
  rw [findComma, List.drop_left, hnone, Option.map_none]

/-- The loop finds the categories of what is left of the string. There is a character ahead of the
first comma : one of the part, or the comma that ended the part before. -/
theorem scan_append (front s : Bytes) (hne : front ++ s ≠ [])
    (hcomma : front = [] → s.head? ≠ some 44) :
    scan (front ++ s) front.length = .ok (tokens s) := by
  by_cases hmem : 44 ∈ s
  · obtain ⟨part, rest, hs, hpart⟩ := List.eq_append_cons_of_mem hmem
    have hlt : rest.length < s.length := by
      rw [hs, List.length_append, List.length_cons]
      omega
    rw [hs] at hcomma ⊢
    have hpos : 0 < front.length + part.length := by
      cases front with
      | nil =>
        cases part with
        | nil => exact absurd rfl (hcomma rfl)
        | cons c part => simp
      | cons c front => simp
    have htoken := token_append hpos (show (44 :: rest).head? ≠ some 32 by simp)
    have hrest := scan_append (front ++ part ++ [44]) rest (by simp) fun hnil => by simp at hnil
    rw [List.append_assoc, List.append_assoc, List.singleton_append, List.length_append,
      List.length_append, List.length_singleton] at hrest
    rw [scan]
    split
    · rename_i hnone
      rw [findComma_append hpart] at hnone
      cases hnone
    · rename_i delim hsome
      rw [findComma_append hpart, Option.some.injEq] at hsome
      obtain ⟨k, hk⟩ := Nat.exists_eq_add_of_lt hpos
      rw [Nat.zero_add] at hk
      rw [hk, Nat.add_sub_cancel] at htoken
      rw [← hsome, hk, endOf, htoken, ← hk, hrest, tokens_append_comma, tokens_of_notMem hpart]
      rfl
  · have hpos : 0 < front.length + s.length := by
      rw [← List.length_append]
      exact List.length_pos_of_ne_nil hne
    have htoken := token_append hpos (show ([] : Bytes).head? ≠ some 32 by simp)
    rw [List.append_nil] at htoken
    rw [scan]
    split
    · rw [endOf, List.length_append, htoken, tokens_of_notMem hmem]
    · rename_i delim hsome
      rw [findComma_eq_none hmem] at hsome
      cases hsome
termination_by s.length

/-- A comma at the start : the end of the first category is `npos`. -/
theorem scan_comma (rest : Bytes) :
    scan (44 :: rest) 0 = .error (.fault "CategoryList::CategoryStr2List") := by
  have hfind : findComma (44 :: rest) 0 = some 0 := by
    simp [findComma, List.findIdx?_cons]
  have hstart := skipBlanks_append (show (44 :: rest).head? ≠ some 32 by simp) 0 []
  rw [scan]
  split
  · rename_i hnone
    rw [hfind] at hnone
    cases hnone
  · rename_i delim hsome
    rw [hfind, Option.some.injEq] at hsome
    rw [← hsome, endOf, token, show skipBlanks (44 :: rest) 0 = .ok 0 from hstart]
    rfl

/-- The scanner finds what `categoryStr2List` has, and faults where that does. -/
theorem str2List_eq (str : Bytes) : str2List str = categoryStr2List str := by
  rw [str2List, categoryStr2List]
  split
  · rfl
  · rename_i hne
    split
    · rename_i hcomma
      cases str with
      | nil => cases hcomma
      | cons c rest =>
        obtain rfl : c = 44 := Option.some.inj hcomma
        exact scan_comma rest
    · rename_i hcomma
      exact scan_append [] str hne fun _ => hcomma

/-! ## The text of a list -/

/-- What is said of a string : the scanner reads nothing outside of it
and returns its categories. -/
def Scanned (str : Bytes) : Prop :=
  str2List str = .ok (tokens str)

/-- A list of categories is what its text is scanned to, and a string is scanned exactly if it
does not start with a comma. -/
theorem scanned_iff (categories : List Bytes) (str : Bytes) :
    ((∀ c ∈ categories, CategoryName c) → str2List (categoryList2Str categories) = .ok categories) ∧
    (Scanned str ↔ str.head? ≠ some 44) := by
  refine ⟨fun h => ?_, ?_⟩
  · rw [str2List_eq, categoryStr2List_categoryList2Str h]
  · rw [Scanned, str2List_eq, categoryStr2List]
    split
    · rename_i hnil
      exact iff_of_true (by rw [hnil]; rfl) (by simp [hnil])
    · split
      · rename_i hcomma
        exact iff_of_false (by simp) (by simp [hcomma])
      · rename_i hcomma
        exact iff_of_true rfl hcomma

/-- Two categories, and a string with commas and blanks that end no category. -/
theorem scanned_two :
    str2List (categoryList2Str [ascii "a", ascii "b"]) = .ok [ascii "a", ascii "b"] ∧
    Scanned (ascii " ,a,, b ,") := by
  have htwo := scanned_iff [ascii "a", ascii "b"] (ascii " ,a,, b ,")
  refine ⟨htwo.1 fun c hc => ?_, htwo.2.mpr (by decide)⟩
  simp only [List.mem_cons, List.not_mem_nil, or_false] at hc
  rcases hc with rfl | rfl <;> exact ⟨by decide, by decide, by decide, by decide⟩

/-- With a comma at the start, the string is read outside of its characters. -/
theorem not_scanned_comma : ¬Scanned (ascii ",a") ∧
    str2List (ascii ",a") = .error (.fault "CategoryList::CategoryStr2List") := by
  have hfault : str2List (ascii ",a") = .error (.fault "CategoryList::CategoryStr2List") := by
    rw [str2List_eq]
    rfl
  refine ⟨fun h => ?_, hfault⟩
  rw [Scanned, hfault] at h
  cases h

end Barry.CategoryList
