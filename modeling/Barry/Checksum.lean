import Barry.BtarCmp
import Barry.Lib.Hex
import Barry.Lib.Lists
import Barry.Sha1

/-!
# The checksums of records

`ChecksumDBData` of `btarcmp.cc` takes in what identifies a record if it is told to, and the bytes
behind its header. Their sizes go through an `int`, so that of a record from 2^31 bytes on they are
not taken in ; of others it is all that is taken in (`flatten_sumPieces`). `ChecksumDBData` says in
hexadecimal digits what the digest is, and two digests have two texts (`digestText_injective`). Over
a whole run `btarcmp` says of those pairs that they differ whose digests do
(`differences_of_compares`).
-/

namespace Barry

namespace BtarCmp

/-- The bytes `SHA1_Update` takes in, which is told their size as an `int`. -/
def takenIn (bs : Bytes) (len : ℤ) : Bytes :=
  bs.take (toInt len).toNat

/-- What `ChecksumDBData` takes in, piece by piece. -/
def sumPieces (includeIds : Bool) (data : DBData) : List Bytes :=
  (if includeIds then
    [takenIn data.dbName data.dbName.length, [data.recType], leBytes 4 data.uniqueId.toNat]
    else []) ++
    [takenIn (data.data.getData.drop data.offset) (data.data.getSize - data.offset)]

/-- What identifies a record if that is asked for, and the bytes behind its header. -/
def contents (includeIds : Bool) (data : DBData) : Bytes :=
  (if includeIds then data.dbName ++ [data.recType] ++ leBytes 4 data.uniqueId.toNat else []) ++
    data.data.getData.drop data.offset

/-- The sizes of a record are within an `int`. -/
structure IntSized (data : DBData) : Prop where
  name : data.dbName.length < 2 ^ 31
  size : data.data.getSize < 2 ^ 31

theorem takenIn_of_le {bs : Bytes} {n : ℕ} (hle : bs.length ≤ n) (hn : n < 2 ^ 31) :
    takenIn bs n = bs := by
  rw [takenIn, toInt_of_lt hn, Int.toNat_natCast, List.take_of_length_le hle]

/-- All of a record whose sizes are within an `int` is taken in. -/
theorem flatten_sumPieces {includeIds : Bool} {data : DBData} (h : IntSized data) :
    (sumPieces includeIds data).flatten = contents includeIds data := by
  have hname := takenIn_of_le (le_refl data.dbName.length) h.name
  have hbytes : takenIn (data.data.getData.drop data.offset) (data.data.getSize - data.offset) =
      data.data.getData.drop data.offset := by
    have hlength : (data.data.getData.drop data.offset).length =
        data.data.getSize - data.offset := by
      rw [List.length_drop, Data.length_getData, Data.getSize]
    rcases Nat.le_total data.offset data.data.getSize with hle | hle
    · have hsize := h.size
      rw [← Nat.cast_sub hle]
      exact takenIn_of_le hlength.le (by omega)
    · have hnil : data.data.getData.drop data.offset = [] :=
        List.eq_nil_of_length_eq_zero (by omega)
      rw [hnil, takenIn, List.take_nil]
  rw [sumPieces, contents, hname, hbytes]
  cases includeIds <;> simp

/-- A digest as text. -/
def digestText (digest : Bytes) : Bytes :=
  digest.flatMap fun b => hexPadded 2 b.toNat

/-- `ChecksumDBData`. -/
def checksumDBData (fuel : ℕ) (includeIds : Bool) (data : DBData) : Option Bytes :=
  (Sha1.final fuel ((sumPieces includeIds data).foldl Sha1.update Sha1.init)).map
    fun s => digestText s.1

/-- The digest of what is taken in. -/
def digest (includeIds : Bool) (data : DBData) : Bytes :=
  Fips.digest (sumPieces includeIds data).flatten

theorem checksumDBData_eq {fuel : ℕ} (hfuel : 64 ≤ fuel) (includeIds : Bool) (data : DBData) :
    checksumDBData fuel includeIds data = some (digestText (digest includeIds data)) := by
  rw [checksumDBData, Sha1.update_pieces, Sha1.final_update _ hfuel, Option.map_some, digest]

theorem digestText_injective : Function.Injective digestText := by
  refine flatMap_injective (Nat.succ_pos 1)
    (fun b => length_hexPadded (Nat.succ_pos 1) b.toNat_lt) ?_
  intro a b h
  have hread : ∀ c : UInt8, (extractHex 255 ⟨hexPadded 2 c.toNat, false⟩).1 = some c.toNat := by
    intro c
    have hc :=
      @extractHex_hexPadded 255 c.toNat 2 (Nat.le_of_lt_succ c.toNat_lt) [] [] (by simp) (by simp)
    rw [List.nil_append, List.append_nil] at hc
    rw [hc]
  have hsame := congrArg (fun text => (extractHex 255 ⟨text, false⟩).1) h
  exact UInt8.toNat_inj.mp (Option.some.inj ((hread a).symm.trans (hsame.trans (hread b))))

/-- The records of `App` with its checksums. -/
def shaRecords (includeIds : Bool) (describe : DBData → Except Error Unit)
    (showDiff : DBData → DBData → Except Error Unit) : Records where
  checksum := fun data => (checksumDBData 64 includeIds data).getD []
  describe := describe
  showDiff := showDiff

theorem shaRecords_checksum (includeIds : Bool) (describe : DBData → Except Error Unit)
    (showDiff : DBData → DBData → Except Error Unit) (data : DBData) :
    (shaRecords includeIds describe showDiff).checksum data =
    digestText (digest includeIds data) := by
  have hsum := checksumDBData_eq (le_refl 64) includeIds data
  exact (congrArg (·.getD []) hsum).trans rfl

/-! ## A whole comparison -/

/-- The pairs of records that were said to differ. -/
def App.differences (app : App) : List (DBData × DBData) :=
  app.out.filterMap fun
    | .differs one two => some (one, two)
    | _ => none

section Differences

variable {rs : Records} {one two opposite b b' : List DBData} {action : Action} {app app' : App}
  {r1 r2 : DBData} {s : Merge} {r : Except Error App}

theorem differences_of_searchCheck (h : searchCheck rs opposite action app b = .ok (b', app')) :
    app'.differences = app.differences := by
  cases b with
  | nil =>
    cases h
    rfl
  | cons r b =>
    rw [searchCheck] at h
    split at h
    · cases h
      rfl
    · obtain ⟨_, -, he⟩ := map_eq_ok.mp h
      cases he
      unfold App.report App.differences App.showDatabaseHeader
      split <;> simp

theorem differences_of_compareRecords (h : compareRecords rs app r1 r2 = .ok app') :
    app'.differences = app.differences ++ if rs.checksum r1 = rs.checksum r2 then []
      else [(r1, r2)] := by
  rw [compareRecords] at h
  split_ifs at h with hname hsum
  · cases h
    simp [App.differences, App.compared, hsum]
  · obtain ⟨_, -, rfl⟩ := map_eq_ok.mp h
    rw [if_neg hsum]
    unfold App.differs App.differences App.showDatabaseHeader App.compared
    split <;> simp

/-- The pairs that are said to differ are those compared whose sums do. -/
theorem differences_of_ends (h : Loop.Ends (turn rs one two) s r) : ∀ app', r = .ok app' →
    ∃ pairs, app'.pairs = s.app.pairs ++ pairs ∧ app'.differences = s.app.differences ++
      pairs.filter fun q => rs.checksum q.1 ≠ rs.checksum q.2 := by
  refine h.rec_on ?_ ?_ ?_
  · intro s e _ app' hr
    cases hr
  · intro s a hturn app' hr
    obtain rfl := Except.ok.inj hr
    rcases turn_cases hturn with
      ⟨-, -, ht⟩ | ⟨_, _, _, _, _, -, -, -, -, ht⟩ | ⟨_, _, _, _, -, -, ht⟩
    · cases ht
      exact ⟨[], (List.append_nil _).symm, (List.append_nil _).symm⟩
    · cases ht
    · cases ht
  · intro s s' r hturn ih app' hr
    obtain ⟨pairs, hpairs, hdifferences⟩ := ih app' hr
    rcases turn_cases hturn with ⟨-, -, ht⟩ | ⟨r1, b1, r2, b2, app₁, -, -, -, hcompare, ht⟩ |
      ⟨b1, b2, app₁, app₂, hcheck1, hcheck2, ht⟩
    · cases ht
    · cases ht
      refine ⟨(r1, r2) :: pairs, ?_, ?_⟩
      · rw [hpairs, (compareRecords_ok hcompare).2.2, List.append_assoc, List.singleton_append]
      · rw [hdifferences, differences_of_compareRecords hcompare, List.append_assoc,
          List.filter_cons]
        by_cases hsum : rs.checksum r1 = rs.checksum r2 <;> simp [hsum]
    · cases ht
      obtain ⟨-, -, -, -, hpairs1⟩ := searchCheck_ok hcheck1
      obtain ⟨-, -, -, -, hpairs2⟩ := searchCheck_ok hcheck2
      exact ⟨pairs, by rw [hpairs, hpairs2, hpairs1],
        by rw [hdifferences, differences_of_searchCheck hcheck2,
          differences_of_searchCheck hcheck1]⟩

end Differences

/-- Of the records compared, those are said to differ whose digests do. The digest is that of the
whole contents if their sizes are within an `int`. -/
theorem differences_of_compares {includeIds : Bool} {describe : DBData → Except Error Unit}
    {showDiff : DBData → DBData → Except Error Unit} {one two : List DBData} {app app' : App}
    (h : Compares (shaRecords includeIds describe showDiff) one two app app') :
    (∃ pairs, app'.pairs = app.pairs ++ pairs ∧ app'.differences = app.differences ++
      pairs.filter fun q => digest includeIds q.1 ≠ digest includeIds q.2) ∧
    ∀ data, IntSized data → digest includeIds data = Fips.digest (contents includeIds data) := by
  refine ⟨?_, fun data hdata => congrArg Fips.digest (flatten_sumPieces hdata)⟩
  obtain ⟨pairs, hpairs, hdifferences⟩ := differences_of_ends h app' rfl
  refine ⟨pairs, hpairs, hdifferences.trans ?_⟩
  simp only [shaRecords_checksum, digestText_injective.ne_iff, ne_eq]

/-- A record that was changed. -/
theorem differences_of_compares_changed :
    (∃ app', Compares (shaRecords false (fun _ => .ok ()) fun _ _ => .ok ())
      [idRecord 1 0] [idRecord 1 1] ⟨[], 0, []⟩ app' ∧
        ∃ pairs, app'.pairs = pairs ∧ app'.differences =
          pairs.filter fun q => digest false q.1 ≠ digest false q.2) ∧
    digest false (idRecord 1 0) = Fips.digest (contents false (idRecord 1 0)) := by
  have hcomplete : Complete (shaRecords false (fun _ => .ok ()) fun _ _ => .ok ()) [idRecord 1 0]
      [idRecord 1 1] ⟨[], 0, []⟩ := by
    refine complete_of_mergeable (List.pairwise_singleton ..) (List.pairwise_singleton ..) ?_
      ⟨fun id _ _ => ?_, fun _ _ _ => rfl, fun _ _ _ => rfl, fun _ _ _ _ _ _ => rfl⟩
    · simp [idRecord, DBData.default]
    · by_cases hid : (1 : UInt32) = id <;> simp [withId, idRecord, hid]
  obtain ⟨app', h, -⟩ := hcomplete
  obtain ⟨⟨pairs, hpairs, hdifferences⟩, hdigest⟩ := differences_of_compares h
  exact ⟨⟨app', h, pairs, hpairs, hdifferences⟩, hdigest _ ⟨by decide, by decide⟩⟩

end BtarCmp

end Barry
