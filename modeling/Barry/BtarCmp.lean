import Barry.DBData
import Barry.Lib.Loop
import Barry.Lib.Text

/-!
# Comparing backups

`App::Compare` of `btarcmp` goes through the records of a database in two backups, both sorted by
unique ID. Where the next IDs are not alike, a record whose ID is nowhere in the other list is
reported ; it is not asked which of the two IDs is less. So an ID that is in both lists, but more
often in one of them, keeps the loop where it is. It ends exactly if there is no such ID, and no
parser throws at what it is to print (`complete_iff`).
-/

namespace Barry

namespace BtarCmp

/-- What happened to a record. -/
inductive Action
  | deleted
  | added
  deriving DecidableEq

/-- What `App` does to a record, or prints. -/
inductive Event
  | header (dbName : Bytes)
  | report (action : Action) (r : DBData)
  | compared (one two : DBData)
  | differs (one two : DBData)

/-- The checksums and the parsers that `App` calls with its options. -/
structure Records where
  /-- `ChecksumDBData`. -/
  checksum : DBData → Bytes
  /-- `GetDBDescription`, and `DumpRecord` if the output is verbose. -/
  describe : DBData → Except Error Unit
  /-- `ParsedCompare` and `ShowRecordDiff`. -/
  showDiff : DBData → DBData → Except Error Unit

/-- What `App` changes : `m_last_dbname`, `m_main_return`, and what it did. -/
structure App where
  lastDBName : Bytes
  mainReturn : ℤ
  out : List Event

namespace App

/-- `ShowDatabaseHeader`. -/
def showDatabaseHeader (app : App) (dbName : Bytes) : App :=
  if dbName ≠ app.lastDBName then
    { app with lastDBName := dbName, out := app.out ++ [.header dbName] }
  else app

/-- The report of `SearchCheck`. -/
def report (app : App) (action : Action) (r : DBData) : App :=
  let app := { app with mainReturn := 3 }.showDatabaseHeader r.dbName
  { app with out := app.out ++ [.report action r] }

/-- A call of `Compare`. -/
def compared (app : App) (one two : DBData) : App :=
  { app with out := app.out ++ [.compared one two] }

/-- The report of `Compare`. -/
def differs (app : App) (one two : DBData) : App :=
  let app := app.showDatabaseHeader one.dbName
  { app with out := app.out ++ [.differs one two] }

/-- The records that were reported. -/
def reported (app : App) (action : Action) : List DBData :=
  app.out.filterMap fun
    | .report a r => if a = action then some r else none
    | _ => none

/-- The records that were compared. -/
def pairs (app : App) : List (DBData × DBData) :=
  app.out.filterMap fun
    | .compared one two => some (one, two)
    | _ => none

end App

/-- `Compare` of two records. -/
def compareRecords (rs : Records) (app : App) (one two : DBData) : Except Error App :=
  if one.dbName ≠ two.dbName then
    .error (.logicError ("Tried to compare records from different databases: " ++
      messageText one.dbName ++ " & " ++ messageText two.dbName))
  else if rs.checksum one = rs.checksum two then .ok (app.compared one two)
  else (rs.showDiff one two).map fun _ => (app.compared one two).differs one two

/-- `IdExists`. -/
def idExists (list : List DBData) (id : UInt32) : Bool :=
  list.any fun r => r.uniqueId = id

/-- `SearchCheck`, with what is left of the list. -/
def searchCheck (rs : Records) (opposite : List DBData) (action : Action) (app : App) :
    List DBData → Except Error (List DBData × App)
  | [] => .ok ([], app)
  | r :: b =>
    if idExists opposite r.uniqueId then .ok (r :: b, app)
    else (rs.describe r).map fun _ => (b, app.report action r)

/-- What is left of the lists, and the `App`. -/
structure Merge where
  b1 : List DBData
  b2 : List DBData
  app : App

/-- The turn of the loop for IDs that are not alike. -/
def check (rs : Records) (one two : List DBData) (s : Merge) :
    Except Error (Turn Merge App) := do
  let (b1, app) ← searchCheck rs two .deleted s.app s.b1
  let (b2, app) ← searchCheck rs one .added app s.b2
  return .again ⟨b1, b2, app⟩

/-- A turn of the loop in `Compare`. -/
def turn (rs : Records) (one two : List DBData) (s : Merge) : Except Error (Turn Merge App) :=
  match s.b1, s.b2 with
  | [], [] => .ok (.leave s.app)
  | r1 :: b1, r2 :: b2 =>
    if r1.uniqueId = r2.uniqueId then
      (compareRecords rs s.app r1 r2).map fun app => .again ⟨b1, b2, app⟩
    else check rs one two s
  | _, _ => check rs one two s

/-- `Compare` of the records of a database ends, and leaves the `App` so. -/
def Compares (rs : Records) (one two : List DBData) (app app' : App) : Prop :=
  Loop.Ends (turn rs one two) ⟨one, two, app⟩ (.ok app')

/-- What is asked of the comparison : it ends, each record that is in one list only is reported
once, and each other record is compared. -/
def Complete (rs : Records) (one two : List DBData) (app : App) : Prop :=
  ∃ app', Compares rs one two app app' ∧
    app'.reported .deleted =
      app.reported .deleted ++ one.filter (fun r => !idExists two r.uniqueId) ∧
    app'.reported .added = app.reported .added ++ two.filter (fun r => !idExists one r.uniqueId) ∧
    ∃ pairs, app'.pairs = app.pairs ++ pairs ∧
      (∀ r ∈ one, idExists two r.uniqueId = true → ∃ q ∈ pairs, q.1 = r) ∧
      ∀ r ∈ two, idExists one r.uniqueId = true → ∃ q ∈ pairs, q.2 = r

/-- The records with an ID. -/
def withId (list : List DBData) (id : UInt32) : List DBData :=
  list.filter fun r => r.uniqueId = id

/-- What is left of two lists can be compared to the end : an ID of both lists is there as often in
one as in the other, and no parser throws at what is to be printed. -/
structure Mergeable (rs : Records) (one two b1 b2 : List DBData) : Prop where
  balanced : ∀ id, idExists one id = true → idExists two id = true →
    (withId b1 id).length = (withId b2 id).length
  deleted : ∀ r ∈ b1, idExists two r.uniqueId = false → rs.describe r = .ok ()
  added : ∀ r ∈ b2, idExists one r.uniqueId = false → rs.describe r = .ok ()
  differing : ∀ id, idExists one id = true → idExists two id = true →
    ∀ q ∈ (withId b1 id).zip (withId b2 id), rs.checksum q.1 ≠ rs.checksum q.2 →
      rs.showDiff q.1 q.2 = .ok ()

section Turn

variable {rs : Records} {one two opposite b b' : List DBData} {action : Action} {app app' : App}
  {r r1 r2 : DBData} {s : Merge} {id : UInt32}

theorem idExists_iff : idExists b id = true ↔ ∃ r ∈ b, r.uniqueId = id := by
  simp [idExists]

theorem withId_cons_of_eq (h : r.uniqueId = id) : withId (r :: b) id = r :: withId b id :=
  List.filter_cons_of_pos (decide_eq_true h)

theorem withId_cons_of_ne (h : r.uniqueId ≠ id) : withId (r :: b) id = withId b id :=
  List.filter_cons_of_neg (by simpa using h)

@[simp] theorem reported_report (a : Action) : (app.report action r).reported a =
    app.reported a ++ if action = a then [r] else [] := by
  unfold App.report App.reported App.showDatabaseHeader
  split <;> split <;> simp_all

@[simp] theorem pairs_report : (app.report action r).pairs = app.pairs := by
  unfold App.report App.pairs App.showDatabaseHeader
  split <;> simp

/-- What a check takes off the list is reported. -/
theorem searchCheck_ok (h : searchCheck rs opposite action app b = .ok (b', app')) :
    ∃ dropped, b = dropped ++ b' ∧
      (∀ r ∈ dropped, idExists opposite r.uniqueId = false ∧ rs.describe r = .ok ()) ∧
      (∀ a, app'.reported a = app.reported a ++ if action = a then dropped else []) ∧
      app'.pairs = app.pairs := by
  cases b with
  | nil =>
    cases h
    exact ⟨[], rfl, List.forall_mem_nil _, fun a => by simp, rfl⟩
  | cons r b =>
    rw [searchCheck] at h
    split at h
    · cases h
      exact ⟨[], rfl, List.forall_mem_nil _, fun a => by simp, rfl⟩
    · rename_i hid
      obtain ⟨_, hdescribe, he⟩ := map_eq_ok.mp h
      cases he
      exact ⟨[r], rfl, by simpa using And.intro hid hdescribe, fun a => reported_report a,
        pairs_report⟩

/-- Records of the other list stay. -/
theorem withId_append_dropped {dropped : List DBData}
    (hdropped : ∀ r ∈ dropped, idExists opposite r.uniqueId = false)
    (hid : idExists opposite id = true) (b : List DBData) :
    withId (dropped ++ b) id = withId b id := by
  have hnil : withId dropped id = [] := by
    refine List.filter_eq_nil_iff.mpr fun r hr heq => ?_
    rw [← of_decide_eq_true heq, hdropped r hr] at hid
    cases hid
  rw [withId, List.filter_append, ← withId, hnil, List.nil_append, withId]

/-- `Compare` of two records of a database. -/
theorem compareRecords_ok (h : compareRecords rs app r1 r2 = .ok app') :
    (rs.checksum r1 ≠ rs.checksum r2 → rs.showDiff r1 r2 = .ok ()) ∧
      (∀ a, app'.reported a = app.reported a) ∧ app'.pairs = app.pairs ++ [(r1, r2)] := by
  rw [compareRecords] at h
  split_ifs at h with hname hsum
  · cases h
    exact ⟨absurd hsum, fun a => by simp [App.reported, App.compared],
      by simp [App.pairs, App.compared]⟩
  · obtain ⟨_, hshow, rfl⟩ := map_eq_ok.mp h
    refine ⟨fun _ => hshow, fun a => ?_, ?_⟩
    · unfold App.differs App.reported App.showDatabaseHeader App.compared
      split <;> simp
    · unfold App.differs App.pairs App.showDatabaseHeader App.compared
      split <;> simp

theorem exists_compareRecords (app : App) (hname : r1.dbName = r2.dbName)
    (hshow : rs.checksum r1 ≠ rs.checksum r2 → rs.showDiff r1 r2 = .ok ()) :
    ∃ app', compareRecords rs app r1 r2 = .ok app' := by
  rw [compareRecords, if_neg (not_not_intro hname)]
  split
  · exact ⟨_, rfl⟩
  · rename_i hsum
    rw [hshow hsum]
    exact ⟨_, rfl⟩

/-- What a turn that throws nothing does. -/
theorem turn_cases {t : Turn Merge App} (h : turn rs one two s = .ok t) :
    (s.b1 = [] ∧ s.b2 = [] ∧ t = .leave s.app) ∨
    (∃ r1 b1 r2 b2 app', s.b1 = r1 :: b1 ∧ s.b2 = r2 :: b2 ∧ r1.uniqueId = r2.uniqueId ∧
      compareRecords rs s.app r1 r2 = .ok app' ∧ t = .again ⟨b1, b2, app'⟩) ∨
    ∃ b1 b2 app₁ app', searchCheck rs two .deleted s.app s.b1 = .ok (b1, app₁) ∧
      searchCheck rs one .added app₁ s.b2 = .ok (b2, app') ∧ t = .again ⟨b1, b2, app'⟩ := by
  have hcheck : check rs one two s = .ok t → ∃ b1 b2 app₁ app',
      searchCheck rs two .deleted s.app s.b1 = .ok (b1, app₁) ∧
        searchCheck rs one .added app₁ s.b2 = .ok (b2, app') ∧ t = .again ⟨b1, b2, app'⟩ := by
    intro h
    obtain ⟨⟨b1, app₁⟩, h1, h⟩ := bind_eq_ok.mp h
    obtain ⟨⟨b2, app'⟩, h2, h⟩ := bind_eq_ok.mp h
    cases h
    exact ⟨b1, b2, app₁, app', h1, h2, rfl⟩
  rw [turn] at h
  split at h
  · rename_i h1 h2
    cases h
    exact .inl ⟨h1, h2, rfl⟩
  · rename_i r1 b1 r2 b2 h1 h2
    split at h
    · rename_i hid
      obtain ⟨app', hcompare, rfl⟩ := map_eq_ok.mp h
      exact .inr (.inl ⟨r1, b1, r2, b2, app', h1, h2, hid, hcompare, rfl⟩)
    · exact .inr (.inr (hcheck h))
  · exact .inr (.inr (hcheck h))

end Turn

/-! ## What a turn does to what is left -/

section Mergeable

variable {rs : Records} {one two b1 b2 drop1 drop2 : List DBData} {r1 r2 : DBData}

/-- Records that are alike are compared. -/
theorem mergeable_cons_iff (hid : r1.uniqueId = r2.uniqueId)
    (hone : idExists one r1.uniqueId = true) (htwo : idExists two r1.uniqueId = true) :
    Mergeable rs one two (r1 :: b1) (r2 :: b2) ↔
      (rs.checksum r1 ≠ rs.checksum r2 → rs.showDiff r1 r2 = .ok ()) ∧
      Mergeable rs one two b1 b2 := by
  have hdeleted (r : DBData) (h : r = r1) : idExists two r.uniqueId ≠ false := by simp [h, htwo]
  have hadded (r : DBData) (h : r = r2) : idExists one r.uniqueId ≠ false := by
    simp [h, ← hid, hone]
  constructor
  · rintro ⟨hbalanced, hdel, hadd, hdiffering⟩
    refine ⟨fun hsum => ?_, fun id h1 h2 => ?_, fun r hr => hdel r (List.mem_cons_of_mem _ hr),
      fun r hr => hadd r (List.mem_cons_of_mem _ hr), fun id h1 h2 q hq => ?_⟩
    · refine hdiffering r1.uniqueId hone htwo (r1, r2) ?_ hsum
      rw [withId_cons_of_eq rfl, withId_cons_of_eq hid.symm]
      exact List.mem_cons_self
    · have hlen := hbalanced id h1 h2
      by_cases heq : r1.uniqueId = id
      · rw [withId_cons_of_eq heq, withId_cons_of_eq (hid ▸ heq)] at hlen
        exact Nat.succ.inj hlen
      · rwa [withId_cons_of_ne heq, withId_cons_of_ne (hid ▸ heq)] at hlen
    · refine hdiffering id h1 h2 q ?_
      by_cases heq : r1.uniqueId = id
      · rw [withId_cons_of_eq heq, withId_cons_of_eq (hid ▸ heq)]
        exact List.mem_cons_of_mem _ hq
      · rwa [withId_cons_of_ne heq, withId_cons_of_ne (hid ▸ heq)]
  · rintro ⟨hshow, hbalanced, hdel, hadd, hdiffering⟩
    refine ⟨fun id h1 h2 => ?_, fun r hr => ?_, fun r hr => ?_, fun id h1 h2 q hq => ?_⟩
    · by_cases heq : r1.uniqueId = id
      · rw [withId_cons_of_eq heq, withId_cons_of_eq (hid ▸ heq)]
        exact congrArg Nat.succ (hbalanced id h1 h2)
      · rw [withId_cons_of_ne heq, withId_cons_of_ne (hid ▸ heq)]
        exact hbalanced id h1 h2
    · exact (List.mem_cons.mp hr).elim (fun h hf => absurd hf (hdeleted r h)) (hdel r)
    · exact (List.mem_cons.mp hr).elim (fun h hf => absurd hf (hadded r h)) (hadd r)
    · by_cases heq : r1.uniqueId = id
      · rw [withId_cons_of_eq heq, withId_cons_of_eq (hid ▸ heq)] at hq
        rcases List.mem_cons.mp hq with rfl | hq
        · exact hshow
        · exact hdiffering id h1 h2 q hq
      · rw [withId_cons_of_ne heq, withId_cons_of_ne (hid ▸ heq)] at hq
        exact hdiffering id h1 h2 q hq

/-- Records of one list only are reported. -/
theorem mergeable_append_iff (h1 : ∀ r ∈ drop1, idExists two r.uniqueId = false)
    (h2 : ∀ r ∈ drop2, idExists one r.uniqueId = false) :
    Mergeable rs one two (drop1 ++ b1) (drop2 ++ b2) ↔
      (∀ r ∈ drop1, rs.describe r = .ok ()) ∧ (∀ r ∈ drop2, rs.describe r = .ok ()) ∧
        Mergeable rs one two b1 b2 := by
  constructor
  · rintro ⟨hbalanced, hdel, hadd, hdiffering⟩
    refine ⟨fun r hr => hdel r (List.mem_append_left _ hr) (h1 r hr),
      fun r hr => hadd r (List.mem_append_left _ hr) (h2 r hr), fun id hone htwo => ?_,
      fun r hr => hdel r (List.mem_append_right _ hr),
      fun r hr => hadd r (List.mem_append_right _ hr),
      fun id hone htwo => ?_⟩
    · have hlen := hbalanced id hone htwo
      rwa [withId_append_dropped h1 htwo, withId_append_dropped h2 hone] at hlen
    · have hzip := hdiffering id hone htwo
      rwa [withId_append_dropped h1 htwo, withId_append_dropped h2 hone] at hzip
  · rintro ⟨hd1, hd2, hbalanced, hdel, hadd, hdiffering⟩
    refine ⟨fun id hone htwo => ?_, fun r hr => ?_, fun r hr => ?_, fun id hone htwo => ?_⟩
    · rw [withId_append_dropped h1 htwo, withId_append_dropped h2 hone]
      exact hbalanced id hone htwo
    · exact (List.mem_append.mp hr).elim (fun h _ => hd1 r h) (hdel r)
    · exact (List.mem_append.mp hr).elim (fun h _ => hd2 r h) (hadd r)
    · rw [withId_append_dropped h1 htwo, withId_append_dropped h2 hone]
      exact hdiffering id hone htwo

end Mergeable

/-! ## What an end says of the lists -/

section Ends

variable {rs : Records} {one two : List DBData} {s : Merge} {r : Except Error App}

theorem idExists_of_subset {b list : List DBData} {r : DBData} (hsub : b ⊆ list) (hr : r ∈ b) :
    idExists list r.uniqueId = true :=
  idExists_iff.mpr ⟨r, hsub hr, rfl⟩

theorem mergeable_of_ends (h : Loop.Ends (turn rs one two) s r) :
    s.b1 ⊆ one → s.b2 ⊆ two → ∀ app', r = .ok app' → Mergeable rs one two s.b1 s.b2 := by
  refine h.rec_on ?_ ?_ ?_
  · intro s e _ _ _ app' hr
    cases hr
  · intro s a hturn _ _ app' _
    rcases turn_cases hturn with
      ⟨h1, h2, -⟩ | ⟨_, _, _, _, _, -, -, -, -, ht⟩ | ⟨_, _, _, _, -, -, ht⟩
    · rw [h1, h2]
      exact ⟨fun _ _ _ => rfl, List.forall_mem_nil _, List.forall_mem_nil _,
        fun _ _ _ => List.forall_mem_nil _⟩
    · cases ht
    · cases ht
  · intro s s' r hturn ih hsub1 hsub2 app' hr
    rcases turn_cases hturn with ⟨-, -, ht⟩ | ⟨r1, b1, r2, b2, app₁, h1, h2, hid, hcompare, ht⟩ |
      ⟨b1, b2, app₁, app₂, hcheck1, hcheck2, ht⟩
    · cases ht
    · cases ht
      rw [h1] at hsub1 ⊢
      rw [h2] at hsub2 ⊢
      have hone := idExists_of_subset hsub1 List.mem_cons_self
      have htwo := hid ▸ idExists_of_subset hsub2 List.mem_cons_self
      exact (mergeable_cons_iff hid hone htwo).mpr ⟨(compareRecords_ok hcompare).1,
        ih (List.cons_subset.mp hsub1).2 (List.cons_subset.mp hsub2).2 app' hr⟩
    · cases ht
      obtain ⟨drop1, h1, hdrop1, -, -⟩ := searchCheck_ok hcheck1
      obtain ⟨drop2, h2, hdrop2, -, -⟩ := searchCheck_ok hcheck2
      rw [h1] at hsub1 ⊢
      rw [h2] at hsub2 ⊢
      exact (mergeable_append_iff (fun r hr => (hdrop1 r hr).1) fun r hr => (hdrop2 r hr).1).mpr
        ⟨fun r hr => (hdrop1 r hr).2, fun r hr => (hdrop2 r hr).2,
          ih (List.append_subset.mp hsub1).2 (List.append_subset.mp hsub2).2 app' hr⟩

/-- What is reported and compared on the way to an end. -/
def Results (one two : List DBData) (s : Merge) (app' : App) : Prop :=
  app'.reported .deleted =
    s.app.reported .deleted ++ s.b1.filter (fun r => !idExists two r.uniqueId) ∧
  app'.reported .added =
    s.app.reported .added ++ s.b2.filter (fun r => !idExists one r.uniqueId) ∧
  ∃ pairs, app'.pairs = s.app.pairs ++ pairs ∧
    (∀ r ∈ s.b1, idExists two r.uniqueId = true → ∃ q ∈ pairs, q.1 = r) ∧
    ∀ r ∈ s.b2, idExists one r.uniqueId = true → ∃ q ∈ pairs, q.2 = r

theorem results_nil (h1 : s.b1 = []) (h2 : s.b2 = []) : Results one two s s.app := by
  rw [Results, h1, h2]
  exact ⟨(List.append_nil _).symm, (List.append_nil _).symm, [], (List.append_nil _).symm,
    List.forall_mem_nil _, List.forall_mem_nil _⟩

variable {b1 b2 : List DBData} {r1 r2 : DBData} {app₁ app₂ app' : App}

/-- In front of it, records that are alike. -/
theorem Results.cons (h : Results one two ⟨b1, b2, app₁⟩ app') (h1 : s.b1 = r1 :: b1)
    (h2 : s.b2 = r2 :: b2) (htwo : idExists two r1.uniqueId = true)
    (hone : idExists one r2.uniqueId = true) (hcompare : compareRecords rs s.app r1 r2 = .ok app₁) :
    Results one two s app' := by
  obtain ⟨-, hreported, hpairs⟩ := compareRecords_ok hcompare
  obtain ⟨hdel, hadd, pairs, hall, hall1, hall2⟩ := h
  rw [Results, h1, h2]
  refine ⟨?_, ?_, (r1, r2) :: pairs, ?_, fun r hr hid => ?_, fun r hr hid => ?_⟩
  · rw [hdel, hreported, List.filter_cons_of_neg (by simp [htwo])]
  · rw [hadd, hreported, List.filter_cons_of_neg (by simp [hone])]
  · rw [hall, hpairs, List.append_assoc, List.singleton_append]
  · rcases List.mem_cons.mp hr with rfl | hr
    · exact ⟨_, List.mem_cons_self, rfl⟩
    · obtain ⟨q, hq, heq⟩ := hall1 r hr hid
      exact ⟨q, List.mem_cons_of_mem _ hq, heq⟩
  · rcases List.mem_cons.mp hr with rfl | hr
    · exact ⟨_, List.mem_cons_self, rfl⟩
    · obtain ⟨q, hq, heq⟩ := hall2 r hr hid
      exact ⟨q, List.mem_cons_of_mem _ hq, heq⟩

/-- In front of it, records that are only in one of the lists. -/
theorem Results.append (h : Results one two ⟨b1, b2, app₂⟩ app')
    (hcheck1 : searchCheck rs two .deleted s.app s.b1 = .ok (b1, app₁))
    (hcheck2 : searchCheck rs one .added app₁ s.b2 = .ok (b2, app₂)) : Results one two s app' := by
  obtain ⟨drop1, h1, hdrop1, hreported1, hpairs1⟩ := searchCheck_ok hcheck1
  obtain ⟨drop2, h2, hdrop2, hreported2, hpairs2⟩ := searchCheck_ok hcheck2
  obtain ⟨hdel, hadd, pairs, hall, hall1, hall2⟩ := h
  have hkeep1 : drop1.filter (fun r => !idExists two r.uniqueId) = drop1 :=
    List.filter_eq_self.mpr fun r hr => by simp [(hdrop1 r hr).1]
  have hkeep2 : drop2.filter (fun r => !idExists one r.uniqueId) = drop2 :=
    List.filter_eq_self.mpr fun r hr => by simp [(hdrop2 r hr).1]
  rw [Results, h1, h2]
  refine ⟨?_, ?_, pairs, ?_, fun r hr hid => ?_, fun r hr hid => ?_⟩
  · rw [hdel, hreported2, hreported1, List.filter_append, hkeep1]
    simp
  · rw [hadd, hreported2, hreported1, List.filter_append, hkeep2]
    simp
  · rw [hall, hpairs2, hpairs1]
  · refine hall1 r ((List.mem_append.mp hr).resolve_left fun hdrop => ?_) hid
    rw [(hdrop1 r hdrop).1] at hid
    cases hid
  · refine hall2 r ((List.mem_append.mp hr).resolve_left fun hdrop => ?_) hid
    rw [(hdrop2 r hdrop).1] at hid
    cases hid

/-- What was reported and compared. -/
theorem results_of_ends (h : Loop.Ends (turn rs one two) s r) :
    s.b1 ⊆ one → s.b2 ⊆ two → ∀ app', r = .ok app' → Results one two s app' := by
  refine h.rec_on ?_ ?_ ?_
  · intro s e _ _ _ app' hr
    cases hr
  · intro s a hturn _ _ app' hr
    obtain rfl := Except.ok.inj hr
    rcases turn_cases hturn with
      ⟨h1, h2, ht⟩ | ⟨_, _, _, _, _, -, -, -, -, ht⟩ | ⟨_, _, _, _, -, -, ht⟩
    · cases ht
      exact results_nil h1 h2
    · cases ht
    · cases ht
  · intro s s' r hturn ih hsub1 hsub2 app' hr
    rcases turn_cases hturn with ⟨-, -, ht⟩ | ⟨r1, b1, r2, b2, app₁, h1, h2, hid, hcompare, ht⟩ |
      ⟨b1, b2, app₁, app₂, hcheck1, hcheck2, ht⟩
    · cases ht
    · cases ht
      rw [h1] at hsub1
      rw [h2] at hsub2
      have hone : idExists one r2.uniqueId = true :=
        hid ▸ idExists_of_subset hsub1 List.mem_cons_self
      have htwo : idExists two r1.uniqueId = true :=
        hid ▸ idExists_of_subset hsub2 List.mem_cons_self
      exact (ih (List.cons_subset.mp hsub1).2 (List.cons_subset.mp hsub2).2 app' hr).cons h1
        h2 htwo hone hcompare
    · cases ht
      obtain ⟨drop1, h1, -, -, -⟩ := searchCheck_ok hcheck1
      obtain ⟨drop2, h2, -, -, -⟩ := searchCheck_ok hcheck2
      rw [h1] at hsub1
      rw [h2] at hsub2
      exact (ih (List.append_subset.mp hsub1).2 (List.append_subset.mp hsub2).2 app' hr).append
        hcheck1 hcheck2

end Ends

/-! ## Sorted lists -/

/-- Sorted by unique ID. -/
def Sorted (list : List DBData) : Prop :=
  list.Pairwise fun r r' => r.uniqueId ≤ r'.uniqueId

section Sorted

variable {rs : Records} {one two opposite b b' : List DBData} {action : Action} {app : App}
  {r : DBData}

/-- An ID that is left in one list as often as in the other is not before the head of the other. -/
theorem head_le (hsorted : Sorted b')
    (hlen : (withId (r :: b) r.uniqueId).length = (withId b' r.uniqueId).length) :
    ∃ r' rest, b' = r' :: rest ∧ r'.uniqueId ≤ r.uniqueId := by
  have hpos : 0 < (withId b' r.uniqueId).length := by
    rw [← hlen, withId_cons_of_eq rfl]
    exact Nat.succ_pos _
  obtain ⟨q, hq⟩ := List.exists_mem_of_length_pos hpos
  obtain ⟨hq, hid⟩ := List.mem_filter.mp hq
  cases b' with
  | nil => cases hq
  | cons r' rest =>
    refine ⟨r', rest, rfl, ?_⟩
    rw [← of_decide_eq_true hid]
    rcases List.mem_cons.mp hq with rfl | hq
    · exact UInt32.le_refl _
    · exact (List.pairwise_cons.mp hsorted).1 q hq

theorem exists_searchCheck (action : Action) (app : App)
    (hdescribe : ∀ r ∈ b, idExists opposite r.uniqueId = false → rs.describe r = .ok ()) :
    ∃ b' app', searchCheck rs opposite action app b = .ok (b', app') ∧
      (b'.length < b.length ∨ b' = b ∧ ∀ r ∈ b.head?, idExists opposite r.uniqueId = true) := by
  cases b with
  | nil => exact ⟨[], app, rfl, .inr ⟨rfl, by simp⟩⟩
  | cons r b =>
    rw [searchCheck]
    split
    · rename_i hid
      exact ⟨r :: b, app, rfl, .inr ⟨rfl, by simpa using hid⟩⟩
    · rename_i hid
      rw [hdescribe r List.mem_cons_self (by simpa using hid)]
      exact ⟨b, app.report action r, rfl, .inl (Nat.lt_succ_self _)⟩

/-- What can be merged, and is sorted. -/
structure Ready (rs : Records) (one two : List DBData) (s : Merge) : Prop where
  subset1 : s.b1 ⊆ one
  subset2 : s.b2 ⊆ two
  sorted1 : Sorted s.b1
  sorted2 : Sorted s.b2
  mergeable : Mergeable rs one two s.b1 s.b2

/-- A check of lists whose heads are not alike. -/
theorem check_progress {s : Merge} (h : Ready rs one two s) (hne : s.b1 ≠ [] ∨ s.b2 ≠ [])
    (hid : ∀ r1 b1 r2 b2, s.b1 = r1 :: b1 → s.b2 = r2 :: b2 → r1.uniqueId ≠ r2.uniqueId) :
    ∃ s', check rs one two s = .ok (.again s') ∧ Ready rs one two s' ∧
      s'.b1.length + s'.b2.length < s.b1.length + s.b2.length := by
  obtain ⟨b1, app₁, hcheck1, hstay1⟩ := exists_searchCheck .deleted s.app h.mergeable.deleted
  obtain ⟨b2, app₂, hcheck2, hstay2⟩ := exists_searchCheck .added app₁ h.mergeable.added
  obtain ⟨drop1, h1, hdrop1, -, -⟩ := searchCheck_ok hcheck1
  obtain ⟨drop2, h2, hdrop2, -, -⟩ := searchCheck_ok hcheck2
  obtain ⟨hsub1, hsub2, hsorted1, hsorted2, hmerge⟩ := h
  have hcheck : check rs one two s = .ok (.again ⟨b1, b2, app₂⟩) :=
    bind_eq_ok.mpr ⟨_, hcheck1, bind_eq_ok.mpr ⟨_, hcheck2, rfl⟩⟩
  refine ⟨_, hcheck, ?_, ?_⟩
  · rw [h1] at hsub1 hsorted1 hmerge
    rw [h2] at hsub2 hsorted2 hmerge
    exact ⟨(List.append_subset.mp hsub1).2, (List.append_subset.mp hsub2).2,
      (List.pairwise_append.mp hsorted1).2.1, (List.pairwise_append.mp hsorted2).2.1,
      ((mergeable_append_iff (fun r hr => (hdrop1 r hr).1) fun r hr => (hdrop2 r hr).1).mp
        hmerge).2.2⟩
  · have hle1 : b1.length ≤ s.b1.length := by rw [h1, List.length_append]; omega
    have hle2 : b2.length ≤ s.b2.length := by rw [h2, List.length_append]; omega
    rcases hstay1 with hlt | ⟨-, hhead1⟩
    · dsimp only
      omega
    rcases hstay2 with hlt | ⟨-, hhead2⟩
    · dsimp only
      omega
    -- both heads are in the other list, so that neither ID is before the other
    exfalso
    have hle (r1 b1) (hb1 : s.b1 = r1 :: b1) :
        ∃ r2 b2, s.b2 = r2 :: b2 ∧ r2.uniqueId ≤ r1.uniqueId :=
      head_le hsorted2 (b := b1) (hb1 ▸ hmerge.balanced _
        (idExists_of_subset hsub1 (by simp [hb1])) (hhead1 r1 (by simp [hb1])))
    have hge (r2 b2) (hb2 : s.b2 = r2 :: b2) :
        ∃ r1 b1, s.b1 = r1 :: b1 ∧ r1.uniqueId ≤ r2.uniqueId :=
      head_le hsorted1 (b := b2) (hb2 ▸ (hmerge.balanced _ (hhead2 r2 (by simp [hb2]))
        (idExists_of_subset hsub2 (by simp [hb2]))).symm)
    obtain ⟨r1, rest1, hb1⟩ : ∃ r1 rest1, s.b1 = r1 :: rest1 := by
      rcases hne with hne | hne
      · exact List.exists_cons_of_ne_nil hne
      · obtain ⟨r2, rest2, hb2⟩ := List.exists_cons_of_ne_nil hne
        obtain ⟨r1, rest1, hb1, -⟩ := hge r2 rest2 hb2
        exact ⟨r1, rest1, hb1⟩
    obtain ⟨r2, rest2, hb2, hle⟩ := hle r1 rest1 hb1
    obtain ⟨r, rest, hb, hge⟩ := hge r2 rest2 hb2
    obtain ⟨rfl, -⟩ := List.cons.inj (hb1.symm.trans hb)
    exact hid r1 rest1 r2 rest2 hb1 hb2 (UInt32.le_antisymm hge hle)

theorem turn_progress {s : Merge} (hdb : ∀ r1 ∈ one, ∀ r2 ∈ two, r1.dbName = r2.dbName)
    (h : Ready rs one two s) : (∃ app', turn rs one two s = .ok (.leave app')) ∨
      ∃ s', turn rs one two s = .ok (.again s') ∧ Ready rs one two s' ∧
        s'.b1.length + s'.b2.length < s.b1.length + s.b2.length := by
  rw [turn]
  split
  · exact .inl ⟨_, rfl⟩
  · rename_i r1 b1 r2 b2 h1 h2
    split
    · rename_i hid
      obtain ⟨hsub1, hsub2, hsorted1, hsorted2, hmerge⟩ := h
      rw [h1] at hsub1 hsorted1 hmerge
      rw [h2] at hsub2 hsorted2 hmerge
      have hone := idExists_of_subset hsub1 List.mem_cons_self
      have htwo := hid ▸ idExists_of_subset hsub2 List.mem_cons_self
      obtain ⟨hshow, hmerge⟩ := (mergeable_cons_iff hid hone htwo).mp hmerge
      obtain ⟨app', hcompare⟩ := exists_compareRecords s.app
        (hdb r1 (hsub1 List.mem_cons_self) r2 (hsub2 List.mem_cons_self)) hshow
      refine .inr ⟨⟨b1, b2, app'⟩, by rw [hcompare]; rfl, ⟨(List.cons_subset.mp hsub1).2,
        (List.cons_subset.mp hsub2).2, (List.pairwise_cons.mp hsorted1).2,
        (List.pairwise_cons.mp hsorted2).2, hmerge⟩, ?_⟩
      rw [h1, h2, List.length_cons, List.length_cons]
      dsimp only
      omega
    · rename_i hid
      refine .inr (check_progress h (.inl (by simp [h1])) ?_)
      rintro r1' b1' r2' b2' h1' h2'
      obtain ⟨rfl, -⟩ := List.cons.inj (h1.symm.trans h1')
      obtain ⟨rfl, -⟩ := List.cons.inj (h2.symm.trans h2')
      exact hid
  · rename_i hnil hcons
    refine .inr (check_progress h ?_ fun r1 b1 r2 b2 h1 h2 => (hcons r1 b1 r2 b2 h1 h2).elim)
    by_contra hempty
    obtain ⟨h1, h2⟩ := not_or.mp hempty
    exact hnil (not_not.mp h1) (not_not.mp h2)

/-- Lists that can be merged are compared to the end. -/
theorem complete_of_mergeable (hone : Sorted one) (htwo : Sorted two)
    (hdb : ∀ r1 ∈ one, ∀ r2 ∈ two, r1.dbName = r2.dbName) (h : Mergeable rs one two one two) :
    Complete rs one two app := by
  obtain ⟨app', hends⟩ := Loop.ends_of_measure (I := Ready rs one two)
    (fun s => s.b1.length + s.b2.length) (fun _ => turn_progress hdb)
    (s := ⟨one, two, app⟩) ⟨List.Subset.refl _, List.Subset.refl _, hone, htwo, h⟩
  exact ⟨app', hends, results_of_ends hends (List.Subset.refl _) (List.Subset.refl _) app' rfl⟩

/-- The comparison is complete exactly if the lists can be merged. -/
theorem complete_iff (hone : Sorted one) (htwo : Sorted two)
    (hdb : ∀ r1 ∈ one, ∀ r2 ∈ two, r1.dbName = r2.dbName) :
    Complete rs one two app ↔ Mergeable rs one two one two := by
  constructor
  · rintro ⟨app', h, -⟩
    exact mergeable_of_ends h (List.Subset.refl _) (List.Subset.refl _) app' rfl
  · exact complete_of_mergeable hone htwo hdb

/-- Records whose sums are their bytes, and whose parsers throw nothing. -/
def plainRecords : Records :=
  ⟨DBData.payload, fun _ => .ok (), fun _ _ => .ok ()⟩

/-- A record of two bytes. -/
def idRecord (id : UInt32) (data : UInt8) : DBData :=
  { DBData.default with uniqueId := id, data := .ofBytes [data, data] }

/-- A record deleted, one changed and one added. -/
theorem complete_changed : Complete plainRecords [idRecord 1 0, idRecord 2 0]
    [idRecord 2 1, idRecord 3 0] ⟨[], 0, []⟩ := by
  refine (complete_iff ?_ ?_ ?_).mpr ⟨fun id h1 h2 => ?_, fun _ _ _ => rfl, fun _ _ _ => rfl,
    fun _ _ _ _ _ _ => rfl⟩
  · unfold Sorted
    decide
  · unfold Sorted
    decide
  · simp [idRecord, DBData.default]
  · have hid : id = 2 := by
      simp only [idExists, idRecord, List.any_cons, List.any_nil, Bool.or_false, Bool.or_eq_true,
        decide_eq_true_eq] at h1 h2
      rcases h1 with rfl | rfl
      · exact absurd h2 (by decide)
      · rfl
    rw [hid]
    decide

/-- One record, which the first list has twice. -/
theorem not_complete_repeated :
    (∀ result, ¬Loop.Ends (turn plainRecords [idRecord 1 0, idRecord 1 0] [idRecord 1 0])
      ⟨[idRecord 1 0, idRecord 1 0], [idRecord 1 0], ⟨[], 0, []⟩⟩ result) ∧
    ¬Complete plainRecords [idRecord 1 0, idRecord 1 0] [idRecord 1 0] ⟨[], 0, []⟩ := by
  have hends : ∀ result, ¬Loop.Ends (turn plainRecords [idRecord 1 0, idRecord 1 0] [idRecord 1 0])
      ⟨[idRecord 1 0, idRecord 1 0], [idRecord 1 0], ⟨[], 0, []⟩⟩ result := by
    intro result
    have hturn : turn plainRecords [idRecord 1 0, idRecord 1 0] [idRecord 1 0]
        ⟨[idRecord 1 0, idRecord 1 0], [idRecord 1 0], ⟨[], 0, []⟩⟩ =
        .ok (.again ⟨[idRecord 1 0], [], ⟨[], 0, [.compared (idRecord 1 0) (idRecord 1 0)]⟩⟩) := rfl
    rw [Loop.ends_iff_of_again hturn]
    refine Loop.not_ends (I := fun s => s.b1 = [idRecord 1 0] ∧ s.b2 = []) ?_ ⟨rfl, rfl⟩
    rintro ⟨b1, b2, app⟩ ⟨rfl, rfl⟩
    exact ⟨⟨[idRecord 1 0], [], app⟩, rfl, rfl, rfl⟩
  exact ⟨hends, fun ⟨app', h, _⟩ => hends _ h⟩

end Sorted

end BtarCmp

end Barry
