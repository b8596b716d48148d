import Barry.VTime

/-!
# The text of ISO times

`iso_to_tm` (`tzwrapper.cc`) takes the dashes of the date and the colons out of a copy of the text,
with an iterator that stays where it is when a character is erased, scans what is left, and looks
for an offset from the fifteenth character on. `isoToTmAt` is this with every read checked, and
never reads outside the string (`isoToTmAt_eq`). What `tm_to_iso` writes is read back as it was
(`isoToTm_tmToIso`), and an offset behind a date and a time of fifteen characters has its sign and
its value (`isoToTm_offset`). A text is rejected only if the scan finds neither three numbers nor
six : a date is enough, and what comes behind it, or behind a sign, may be anything.
-/

namespace Barry

/-! ## The scanner -/

/-- The loop of `iso_to_tm` that erases characters, from position `i` on. -/
def eraseIso (date : Bool) (ts : Bytes) (i : ℕ) : Except Error Bytes :=
  if i = ts.length then .ok ts
  else
    match _h : ts[i]? with
    | none => .error (.fault "iso_to_tm")
    | some c =>
      let date := date && c ≠ 84
      if (date ∧ c = 45) ∨ c = 58 then eraseIso date (ts.eraseIdx i) i else eraseIso date ts (i + 1)
termination_by ts.length - i
decreasing_by
  · have hlt := (List.getElem?_eq_some_iff.mp _h).1
    rw [List.length_eraseIdx_of_lt hlt]
    omega
  · have hlt := (List.getElem?_eq_some_iff.mp _h).1
    omega

/-- `ts.find(c, pos)`, unless it is `npos`. -/
def findFrom (ts : Bytes) (c : UInt8) (pos : ℕ) : Option ℕ :=
  ((ts.drop pos).findIdx? (· = c)).map (pos + ·)

/-- `ts.substr(pos)`, which throws behind the end. -/
def substrFrom (ts : Bytes) (pos : ℕ) : Except Error Bytes :=
  if pos ≤ ts.length then .ok (ts.drop pos) else .error (.fault "iso_to_tm")

/-- The offset behind a sign, in minutes. -/
def readOffset (neg : Bool) (offset : Bytes) : Option ℤ :=
  match sscanf [.number 2, .number 2] offset with
  | [hour, min] =>
    if offset.length = 4 then some (if neg then -(hour * 60 + min) else hour * 60 + min) else none
  | _ => none

/-- The offset that `iso_to_tm` captures. -/
def captureOffset (ts : Bytes) : Except Error (Option ℤ) :=
  let neg := findFrom ts 45 15
  match neg.or (findFrom ts 43 15) with
  | none => .ok none
  | some it => (substrFrom ts (it + 1)).map (readOffset neg.isSome)

/-- The numbers that `iso_to_tm` finds. -/
def scanIso (ts : Bytes) : List ℤ :=
  sscanf [.number 4, .number 2, .number 2, .literal 84, .number 2, .number 2, .number 2] ts

/-- `iso_to_tm`, with every read checked. -/
def isoToTmAt (timestamp : Bytes) : Except Error (Option (Tm × Bool × Option ℤ)) := do
  let ts ← eraseIso true timestamp 0
  let utc := (findFrom ts 90 15).isSome
  match scanIso ts with
  | [year, mon, mday] =>
    (captureOffset ts).map fun zone => some (⟨year - 1900, mon - 1, mday, 0, 0, 0⟩, utc, zone)
  | [year, mon, mday, hour, min, sec] =>
    (captureOffset ts).map
      fun zone => some (⟨year - 1900, mon - 1, mday, hour, min, sec⟩, utc, zone)
  | _ => .ok none

/-! ## What it reads -/

section Reads

variable {ts : Bytes} {c : UInt8} {pos it : ℕ}

/-- The loop leaves what is in front of its position. -/
theorem eraseIso_append : ∀ (s : Bytes) (date : Bool) (front : Bytes),
    eraseIso date (front ++ s) front.length = .ok (front ++ stripIso date s)
  | [], date, front => by
    rw [eraseIso, List.append_nil, if_pos rfl, stripIso, List.append_nil]
  | c :: s, date, front => by
    have hget : (front ++ c :: s)[front.length]? = some c := by simp
    rw [eraseIso, if_neg (by simp), stripIso]
    split
    · rename_i hnone
      cases hnone.symm.trans hget
    · rename_i c' hsome
      obtain rfl : c = c' := Option.some.inj (hget.symm.trans hsome)
      dsimp only
      split
      · rw [List.eraseIdx_append_of_length_le le_rfl, Nat.sub_self, List.eraseIdx_cons_zero,
          eraseIso_append s]
      · have hnext := eraseIso_append s (date && c ≠ 84) (front ++ [c])
        rw [List.length_append, List.length_singleton, List.append_assoc,
          List.append_assoc] at hnext
        exact hnext

theorem dropWhile_of_find (h : findFrom ts c pos = some it) :
    (ts.drop pos).dropWhile (· ≠ c) = c :: ts.drop (it + 1) ∧ it + 1 ≤ ts.length := by
  obtain ⟨i, hi, rfl⟩ := Option.map_eq_some_iff.mp h
  obtain ⟨hlt, hget, hbefore⟩ := List.findIdx?_eq_some_iff_getElem.mp hi
  have hc : (ts.drop pos)[i] = c := of_decide_eq_true hget
  have hsplit : ts.drop pos = (ts.drop pos).take i ++ c :: ts.drop (pos + i + 1) := by
    rw [add_assoc, ← List.drop_drop, ← hc, List.getElem_cons_drop, List.take_append_drop]
  have hscan := @scan_append _ (fun b => decide (b ≠ c)) ((ts.drop pos).take i)
    (c :: ts.drop (pos + i + 1)) (fun b hb => by
      obtain ⟨j, hj, rfl⟩ := List.getElem_of_mem hb
      rw [List.length_take] at hj
      rw [List.getElem_take]
      simpa using hbefore j (by omega)) (by simp)
  rw [← hsplit] at hscan
  rw [List.length_drop] at hlt
  exact ⟨hscan.2, by omega⟩

theorem dropWhile_of_find_none (h : findFrom ts c pos = none) :
    (ts.drop pos).dropWhile (· ≠ c) = [] := by
  rw [findFrom, Option.map_eq_none_iff, List.findIdx?_eq_none_iff] at h
  rw [List.dropWhile_eq_nil_iff]
  intro b hb
  rw [decide_eq_true_iff]
  exact of_decide_eq_false (h b hb)

theorem isSome_findFrom : (findFrom ts c pos).isSome = decide (c ∈ ts.drop pos) := by
  rw [findFrom, Option.isSome_map, List.findIdx?_isSome, List.any_eq]
  exact decide_eq_decide.mpr (by simp)

theorem substrFrom_of_find (h : findFrom ts c pos = some it) :
    substrFrom ts (it + 1) = .ok (ts.drop (it + 1)) :=
  if_pos (dropWhile_of_find h).2

theorem zoneMinutes_of_find {sign : UInt8} (h : findFrom ts sign 15 = some it) :
    ∃ minutes, zoneMinutes sign ts = some minutes ∧ minutes = readOffset false (ts.drop (it + 1)) ∧
      minutes.map (-·) = readOffset true (ts.drop (it + 1)) := by
  rw [zoneMinutes, (dropWhile_of_find h).1, readOffset, readOffset]
  dsimp only
  rcases sscanf [.number 2, .number 2] (ts.drop (it + 1)) with _ | ⟨hour, _ | ⟨min, _ | ⟨x, l⟩⟩⟩
  · exact ⟨_, rfl, rfl, rfl⟩
  · exact ⟨_, rfl, rfl, rfl⟩
  · refine ⟨_, rfl, rfl, ?_⟩
    dsimp only
    split <;> rfl
  · exact ⟨_, rfl, rfl, rfl⟩

theorem zoneMinutes_of_find_none {sign : UInt8} (h : findFrom ts sign 15 = none) :
    zoneMinutes sign ts = none := by
  rw [zoneMinutes, dropWhile_of_find_none h]

/-- What is captured is what stands behind the first dash, or behind the
first plus if there is none. -/
theorem captureOffset_eq (ts : Bytes) : captureOffset ts =
    .ok (match zoneMinutes 45 ts with
      | some minutes => minutes.map (-·)
      | none => (zoneMinutes 43 ts).join) := by
  rw [captureOffset]
  cases hneg : findFrom ts 45 15 with
  | some it =>
    obtain ⟨minutes, hminutes, -, hread⟩ := zoneMinutes_of_find hneg
    rw [Option.some_or, hminutes]
    dsimp only
    rw [substrFrom_of_find hneg, hread]
    rfl
  | none =>
    rw [Option.none_or, zoneMinutes_of_find_none hneg]
    cases hpos : findFrom ts 43 15 with
    | none =>
      rw [zoneMinutes_of_find_none hpos]
      rfl
    | some it =>
      obtain ⟨minutes, hminutes, hread, -⟩ := zoneMinutes_of_find hpos
      rw [hminutes, Option.join_some]
      dsimp only
      rw [substrFrom_of_find hpos, hread]
      rfl

/-- No read is outside the string. -/
theorem isoToTmAt_eq (timestamp : Bytes) : isoToTmAt timestamp = .ok (isoToTm timestamp) := by
  have herase := eraseIso_append timestamp true []
  rw [List.nil_append, List.length_nil, List.nil_append] at herase
  rw [isoToTmAt, herase, isoToTm]
  simp only [bind, Except.bind, captureOffset_eq, Except.map, isSome_findFrom, scanIso]
  generalize sscanf [.number 4, .number 2, .number 2, .literal 84, .number 2, .number 2, .number 2]
    (stripIso true timestamp) = numbers
  -- no numbers, and so on up to more than six
  rcases numbers with _ | ⟨_, _ | ⟨_, _ | ⟨_, _ | ⟨_, _ | ⟨_, _ | ⟨_, _ | _⟩⟩⟩⟩⟩⟩ <;> rfl

/-- A text is rejected if neither a date nor a date and a time are found in it. -/
theorem isoToTm_eq_none_iff (timestamp : Bytes) : isoToTm timestamp = none ↔
    (scanIso (stripIso true timestamp)).length ≠ 3 ∧
    (scanIso (stripIso true timestamp)).length ≠ 6 := by
  rw [isoToTm, scanIso]
  split
  · rename_i heq
    simp [heq]
  · rename_i heq
    simp [heq]
  · rename_i hdate htime
    refine iff_of_true rfl ⟨fun hlen => ?_, fun hlen => ?_⟩
    · obtain ⟨year, mon, mday, h⟩ := List.length_eq_three.mp hlen
      exact hdate year mon mday h
    · generalize hscan : sscanf [.number 4, .number 2, .number 2, .literal 84, .number 2, .number 2,
        .number 2] (stripIso true timestamp) = numbers at hlen htime
      rcases numbers with _ | ⟨year, _ | ⟨mon, _ | ⟨mday, _ | ⟨hour, _ | ⟨min, _ | ⟨sec, _ | _⟩⟩⟩⟩⟩⟩
      case cons.cons.cons.cons.cons.cons.nil => exact htime year mon mday hour min sec rfl
      all_goals simp at hlen

end Reads

/-! ## Round trips -/

/-- What is written is read as it was. -/
theorem isoToTm_tmToIso {t : Tm} (h : t.Normalized)
    (hyear : 0 ≤ t.year + 1900 ∧ t.year + 1900 < 10000)
    (utc : Bool) : isoToTm (tmToIso t utc) = some (t, utc, none) := by
  obtain ⟨hmon, hmday, hhour, hmin, hsec⟩ := h
  have hlong := (monthStart_succ t.month).2
  rw [tmToIso,
    isoToTm_time utc (digits_year hyear) (digits_field (by omega)) (digits_field (by omega))
    (digits_field (by omega)) (digits_field (by omega)) (digits_field (by omega)),
    Int.toNat_of_nonneg hyear.1, Int.toNat_of_nonneg (by omega), Int.toNat_of_nonneg (by omega),
    Int.toNat_of_nonneg hhour.1, Int.toNat_of_nonneg hmin.1, Int.toNat_of_nonneg hsec.1,
    add_sub_cancel_right, add_sub_cancel_right]

theorem stripIso_append (date : Bool) (s rest : Bytes) :
    stripIso date (s ++ rest) = stripIso date s ++ stripIso (date && 84 ∉ s) rest := by
  induction s generalizing date with
  | nil => simp [stripIso]
  | cons c s ih =>
    rw [List.cons_append, stripIso, stripIso, ih]
    have hflag : (date && decide (c ≠ 84) && decide (84 ∉ s)) = (date && decide (84 ∉ c :: s)) := by
      by_cases hc : c = 84 <;> simp [hc, eq_comm]
    rw [hflag]
    split <;> rfl

section Offset

variable {pre hour min : Bytes} {h m : ℕ}

/-- An offset behind fifteen characters or more. -/
theorem zoneMinutes_append {ts : Bytes} {sign : UInt8} (hlen : 15 ≤ ts.length)
    (hsign : sign ∉ ts.drop 15) (hh : Digits hour 2 h) (hm : Digits min 2 m) :
    zoneMinutes sign (ts ++ sign :: (hour ++ min)) = some (some ((h : ℤ) * 60 + m)) := by
  have hdrop : ((ts ++ sign :: (hour ++ min)).drop 15).dropWhile (· ≠ sign) =
      sign :: (hour ++ min) := by
    rw [List.drop_append_of_le_length hlen]
    refine (scan_append (fun c hc => ?_) (by simp)).2
    exact decide_eq_true fun he => hsign (he ▸ hc)
  have hscan : sscanf [.number 2, .number 2] (hour ++ min) = [(h : ℤ), m] := by
    have hmin := @Digits.sscanf _ [] _ _ hm (by decide) []
    rw [List.append_nil] at hmin
    rw [hh.sscanf (by decide), hmin, sscanf]
  rw [zoneMinutes, hdrop]
  dsimp only
  rw [hscan]
  dsimp only
  rw [if_pos (by rw [List.length_append, hh.length, hm.length])]

/-- What is read behind the numbers, of whatever kind the time is. -/
theorem flags_of_isoToTm {timestamp : Bytes} {r : Tm × Bool × Option ℤ}
    (hread : isoToTm timestamp = some r) :
    r.2.1 = decide (90 ∈ (stripIso true timestamp).drop 15) ∧
    r.2.2 = match zoneMinutes 45 (stripIso true timestamp) with
      | some minutes => minutes.map (-·)
      | none => (zoneMinutes 43 (stripIso true timestamp)).join := by
  rw [isoToTm] at hread
  split at hread
  · obtain rfl := Option.some.inj hread
    exact ⟨rfl, rfl⟩
  · obtain rfl := Option.some.inj hread
    exact ⟨rfl, rfl⟩
  · cases hread

/-- The colon of an offset behind a time is taken out, and its sign is not. -/
theorem stripIso_offset {sign : UInt8} (htime : 84 ∈ pre) (hsign : sign = 43 ∨ sign = 45)
    (hh : Digits hour 2 h) (hm : Digits min 2 m) :
    stripIso true (pre ++ sign :: (hour ++ 58 :: min)) =
    stripIso true pre ++ sign :: (hour ++ min) := by
  have hcolon : sign ≠ 58 := by rcases hsign with rfl | rfl <;> decide
  have hhour : ∀ date, stripIso date hour = hour := fun date =>
    stripIso_eq_self date fun c hc => ⟨(hh.ne hc).1.1, (hh.ne hc).1.2.1⟩
  have hmin : ∀ date, stripIso date min = min := fun date =>
    stripIso_eq_self date fun c hc => ⟨(hm.ne hc).1.1, (hm.ne hc).1.2.1⟩
  rw [stripIso_append, decide_eq_false (not_not_intro htime), Bool.and_false, stripIso,
    if_neg (by simp [hcolon]), Bool.false_and, stripIso_append, hhour, stripIso,
    if_pos (by simp), hmin]

/-- An offset has its sign and its value if what is in front of it has a `T`, and fifteen characters
or more, without the dashes and colons, of which those from the fifteenth on are no signs. -/
theorem isoToTm_offset {sign : UInt8} {r : Tm × Bool × Option ℤ} (htime : 84 ∈ pre)
    (hlen : 15 ≤ (stripIso true pre).length)
    (hplain : ∀ c ∈ (stripIso true pre).drop 15, c ≠ 43 ∧ c ≠ 45) (hsign : sign = 43 ∨ sign = 45)
    (hh : Digits hour 2 h) (hm : Digits min 2 m)
    (hread : isoToTm (pre ++ sign :: (hour ++ 58 :: min)) = some r) :
    r.2.2 = some (if sign = 45 then -((h : ℤ) * 60 + m) else (h : ℤ) * 60 + m) := by
  rw [(flags_of_isoToTm hread).2, stripIso_offset htime hsign hh hm]
  rcases hsign with rfl | rfl
  · have hnone : zoneMinutes 45 (stripIso true pre ++ 43 :: (hour ++ min)) = none := by
      refine zoneMinutes_eq_none fun hmem => ?_
      rw [List.drop_append_of_le_length hlen, List.mem_append, List.mem_cons,
        List.mem_append] at hmem
      rcases hmem with hc | hc | hc | hc
      · exact (hplain 45 hc).2 rfl
      · exact absurd hc (by decide)
      · exact (hh.ne hc).1.1 rfl
      · exact (hm.ne hc).1.1 rfl
    rw [hnone, zoneMinutes_append hlen (fun hc => (hplain 43 hc).1 rfl) hh hm, if_neg (by decide)]
    rfl
  · rw [zoneMinutes_append hlen (fun hc => (hplain 45 hc).2 rfl) hh hm, if_pos rfl]
    rfl

end Offset

section Full

variable {year mon mday hour min sec : Bytes} {y mo d h mi se : ℕ}

/-- The text of a time with its dashes and colons. -/
def dashed (year mon mday hour min sec : Bytes) : Bytes :=
  year ++ 45 :: (mon ++ 45 :: (mday ++ 84 :: (hour ++ 58 :: (min ++ 58 :: sec))))

/-- The dashes and colons are taken out. -/
theorem stripIso_dashed (hy : Digits year 4 y) (hmo : Digits mon 2 mo) (hd : Digits mday 2 d)
    (hh : Digits hour 2 h) (hmi : Digits min 2 mi) (hs : Digits sec 2 se) (rest : Bytes) :
    stripIso true (dashed year mon mday hour min sec ++ rest) =
      year ++ (mon ++ (mday ++ 84 :: (hour ++ (min ++ (sec ++ stripIso false rest))))) := by
  have hself : ∀ {ds : Bytes} {width n : ℕ}, Digits ds width n → ∀ date, stripIso date ds = ds :=
    fun hds date => stripIso_eq_self date fun c hc => ⟨(hds.ne hc).1.1, (hds.ne hc).1.2.1⟩
  have htime : ∀ {ds : Bytes} {width n : ℕ}, Digits ds width n → decide (84 ∉ ds) = true :=
    fun hds => decide_eq_true fun hc => (hds.ne hc).2 rfl
  have hdate : ∀ s, stripIso true (45 :: s) = stripIso true s := fun s => by
    rw [stripIso, if_pos (by decide)]
    rfl
  have hcolon : ∀ s, stripIso false (58 :: s) = stripIso false s := fun s => by
    rw [stripIso, if_pos (by decide)]
    rfl
  have hT : ∀ s, stripIso true (84 :: s) = 84 :: stripIso false s := fun s => by
    rw [stripIso, if_neg (by decide)]
    rfl
  simp only [dashed, List.append_assoc, List.cons_append]
  simp only [stripIso_append, hself hy, hself hmo, hself hd, hself hh, hself hmi,
    hself hs, htime hy, htime hmo, htime hd, Bool.true_and, Bool.false_and, hdate, hcolon, hT]

/-- Six numbers are found in it. -/
theorem scanIso_compact (hy : Digits year 4 y) (hmo : Digits mon 2 mo) (hd : Digits mday 2 d)
    (hh : Digits hour 2 h) (hmi : Digits min 2 mi) (hs : Digits sec 2 se) (rest : Bytes) :
    scanIso (year ++ (mon ++ (mday ++ 84 :: (hour ++ (min ++ (sec ++ rest)))))) =
      [(y : ℤ), mo, d, h, mi, se] := by
  rw [scanIso, sscanf_date hy hmo hd, sscanf, List.head?_cons, if_pos rfl, List.tail_cons,
    hh.sscanf (by decide), hmi.sscanf (by decide), hs.sscanf (by decide), sscanf]

/-- A time with a fraction and an offset. -/
theorem isoToTm_dashed (hy : Digits year 4 y) (hmo : Digits mon 2 mo) (hd : Digits mday 2 d)
    (hh : Digits hour 2 h) (hmi : Digits min 2 mi) (hs : Digits sec 2 se) {fraction : Bytes}
    (hfraction : ∀ c ∈ fraction, c ≠ 43 ∧ c ≠ 45 ∧ c ≠ 58 ∧ c ≠ 90) {sign : UInt8}
    (hsign : sign = 43 ∨ sign = 45) {zoneHour zoneMin : Bytes} {zh zm : ℕ}
    (hzh : Digits zoneHour 2 zh) (hzm : Digits zoneMin 2 zm) :
    isoToTm
      (dashed year mon mday hour min sec ++ (fraction ++ sign :: (zoneHour ++ 58 :: zoneMin))) =
      some (⟨y - 1900, mo - 1, d, h, mi, se⟩, false,
        some (if sign = 45 then -((zh : ℤ) * 60 + zm) else (zh : ℤ) * 60 + zm)) := by
  have hself : stripIso false fraction = fraction :=
    stripIso_eq_self false fun c hc => ⟨(hfraction c hc).2.1, (hfraction c hc).2.2.1⟩
  have hstrip := stripIso_dashed hy hmo hd hh hmi hs fraction
  have hlen : (year ++ (mon ++ (mday ++ 84 :: (hour ++ (min ++ sec))))).length = 15 := by
    simp [hy.length, hmo.length, hd.length, hh.length, hmi.length, hs.length]
  have hpre : stripIso true (dashed year mon mday hour min sec ++ fraction) =
      year ++ (mon ++ (mday ++ 84 :: (hour ++ (min ++ sec)))) ++ fraction := by
    rw [hstrip, hself]
    simp only [List.append_assoc, List.cons_append]
  have hdrop : (stripIso true (dashed year mon mday hour min sec ++ fraction)).drop 15 =
      fraction := by
    rw [hpre, List.drop_left' hlen]
  obtain ⟨utc, zone, hread⟩ : ∃ utc zone, isoToTm
      (dashed year mon mday hour min sec ++ (fraction ++ sign :: (zoneHour ++ 58 :: zoneMin))) =
        some (⟨y - 1900, mo - 1, d, h, mi, se⟩, utc, zone) := by
    have hscan := scanIso_compact hy hmo hd hh hmi hs
      (stripIso false (fraction ++ sign :: (zoneHour ++ 58 :: zoneMin)))
    rw [← stripIso_dashed hy hmo hd hh hmi hs, scanIso] at hscan
    rw [isoToTm, hscan]
    exact ⟨_, _, rfl⟩
  have htime : 84 ∈ dashed year mon mday hour min sec ++ fraction := by simp [dashed]
  rw [← List.append_assoc] at hread ⊢
  have hoffset := isoToTm_offset htime (by rw [hpre, List.length_append, hlen]; omega)
    (fun c hc => by
      rw [hdrop] at hc
      exact ⟨(hfraction c hc).1, (hfraction c hc).2.1⟩) hsign hzh hzm hread
  have hutc := (flags_of_isoToTm hread).1
  dsimp only at hoffset hutc
  rw [hread, hoffset, hutc, stripIso_offset htime hsign hzh hzm, List.drop_append_of_le_length
    (by rw [hpre, List.length_append, hlen]; omega), hdrop, decide_eq_false]
  intro hc
  rw [List.mem_append, List.mem_cons, List.mem_append] at hc
  rcases hc with hc | hc | hc | hc
  · exact (hfraction 90 hc).2.2.2 rfl
  · rcases hsign with rfl | rfl <;> exact absurd hc (by decide)
  · exact absurd (hzh.isDigit 90 hc) (by decide)
  · exact absurd (hzm.isDigit 90 hc) (by decide)

/-- The text of a time is read as it was written, an offset behind a full time has its sign and its
value, and so has one behind any text with a `T` and fifteen characters or more, without its dashes
and colons, of which those from the fifteenth on are no signs ; no read is outside a text, and it is
rejected exactly if neither a date nor a date and a time are found in it. -/
theorem iso_text :
    (∀ t : Tm, t.Normalized → 0 ≤ t.year + 1900 ∧ t.year + 1900 < 10000 → ∀ utc,
      isoToTmAt (tmToIso t utc) = .ok (some (t, utc, none))) ∧
    (∀ (year mon mday hour min sec fraction zoneHour zoneMin : Bytes) (y mo d h mi se zh zm : ℕ)
      (sign : UInt8), Digits year 4 y → Digits mon 2 mo → Digits mday 2 d → Digits hour 2 h →
      Digits min 2 mi → Digits sec 2 se → (∀ c ∈ fraction, c ≠ 43 ∧ c ≠ 45 ∧ c ≠ 58 ∧ c ≠ 90) →
      sign = 43 ∨ sign = 45 → Digits zoneHour 2 zh → Digits zoneMin 2 zm →
      isoToTmAt (dashed year mon mday hour min sec ++
          (fraction ++ sign :: (zoneHour ++ 58 :: zoneMin))) =
        .ok (some (⟨y - 1900, mo - 1, d, h, mi, se⟩, false,
          some (if sign = 45 then -((zh : ℤ) * 60 + zm) else (zh : ℤ) * 60 + zm)))) ∧
    (∀ (pre zoneHour zoneMin : Bytes) (zh zm : ℕ) (sign : UInt8) (r : Tm × Bool × Option ℤ),
      84 ∈ pre →
      15 ≤ (stripIso true pre).length → (∀ c ∈ (stripIso true pre).drop 15, c ≠ 43 ∧ c ≠ 45) →
      sign = 43 ∨ sign = 45 → Digits zoneHour 2 zh → Digits zoneMin 2 zm →
      isoToTmAt (pre ++ sign :: (zoneHour ++ 58 :: zoneMin)) = .ok (some r) →
      r.2.2 = some (if sign = 45 then -((zh : ℤ) * 60 + zm) else (zh : ℤ) * 60 + zm)) ∧
    ∀ s : Bytes, (∃ r, isoToTmAt s = .ok r) ∧
      (isoToTmAt s = .ok none ↔
        (scanIso (stripIso true s)).length ≠ 3 ∧ (scanIso (stripIso true s)).length ≠ 6) := by
  refine ⟨fun t ht hyear utc => ?_, ?_, ?_, fun s => ⟨⟨_, isoToTmAt_eq s⟩, ?_⟩⟩
  · rw [isoToTmAt_eq, isoToTm_tmToIso ht hyear]
  · intro year mon mday hour min sec fraction zoneHour zoneMin y mo d h mi se zh zm sign hy hmo
      hd hh hmi hs
      hfraction hsign hzh hzm
    rw [isoToTmAt_eq, isoToTm_dashed hy hmo hd hh hmi hs hfraction hsign hzh hzm]
  · intro pre zoneHour zoneMin zh zm sign r htime hlen hplain hsign hzh hzm hread
    rw [isoToTmAt_eq] at hread
    exact isoToTm_offset htime hlen hplain hsign hzh hzm (Except.ok.inj hread)
  · rw [isoToTmAt_eq, ← isoToTm_eq_none_iff, Except.ok.injEq]

theorem digits_of_all {ds : Bytes} {width n : ℕ} (hlen : ds.length = width)
    (hds : ds.all isDigit = true) (hvalue : decNat ds = n) : Digits ds width n :=
  ⟨hlen, List.all_eq_true.mp hds, hvalue⟩

/-- The times of the tests. -/
theorem iso_text_may :
    isoToTmAt (tmToIso ⟨110, 4, 1, 3, 15, 0⟩ true) =
    .ok (some (⟨110, 4, 1, 3, 15, 0⟩, true, none)) ∧
    isoToTmAt (ascii "2010-05-01T04:15:00.000+01:00") =
      .ok (some (⟨2010 - 1900, 5 - 1, 1, 4, 15, 0⟩, false, some 60)) ∧
    ∀ r, isoToTmAt (ascii "2010-05-01T00:15:00.000-03:00") = .ok (some r) → r.2.2 = some (-180) :=
  ⟨iso_text.1 ⟨110, 4, 1, 3, 15, 0⟩ ⟨by decide, by decide, by decide, by decide, by decide⟩
      (by decide) true,
    iso_text.2.1 (ascii "2010") (ascii "05") (ascii "01") (ascii "04") (ascii "15") (ascii "00")
      (ascii ".000") (ascii "01") (ascii "00") 2010 5 1 4 15 0 1 0 43 (digits_of_all rfl rfl rfl)
      (digits_of_all rfl rfl rfl) (digits_of_all rfl rfl rfl) (digits_of_all rfl rfl rfl)
      (digits_of_all rfl rfl rfl) (digits_of_all rfl rfl rfl) (by decide +kernel) (.inl rfl)
      (digits_of_all rfl rfl rfl) (digits_of_all rfl rfl rfl),
    fun r => iso_text.2.2.1 (ascii "2010-05-01T00:15:00.000") (ascii "03") (ascii "00") 3 0 45 r
      (by decide) (by decide) (by decide +kernel) (.inr rfl) (digits_of_all rfl rfl rfl)
      (digits_of_all rfl rfl rfl)⟩

/-- Without seconds the offset is lost, and what is no offset, or no date, is
no reason to reject a text. -/
theorem not_iso_text :
    isoToTmAt (ascii "2010-05-01T04:15+01:00") = .ok (some (⟨110, 4, 1, 4, 15, 0⟩, false, none)) ∧
    isoToTmAt (ascii "2010-05-01T04:15:00.000-010") =
      .ok (some (⟨110, 4, 1, 4, 15, 0⟩, false, none)) ∧
    isoToTmAt (ascii "2010-13-45") = .ok (some (⟨110, 12, 45, 0, 0, 0⟩, false, none)) := by
  rw [isoToTmAt_eq, isoToTmAt_eq, isoToTmAt_eq]
  exact ⟨by decide, by decide, by decide⟩

end Full

end Barry
