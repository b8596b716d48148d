import Barry.Identity
import Barry.Lib.Text
import Mathlib.Data.List.Sort
import Mathlib.Data.PEquiv

/-!
# The id map

`idmap` (`idmap.cc`) has the UIDs OpenSync knows records by, and is added to by `Map` alone, so that
it is a bijection between some UIDs and some record IDs (`Bijective.toPEquiv`). `Save` writes a line
for each entry. `Load` skips blanks behind the number of a line, and with them those a UID starts
with : a map is restored if and only if there are none (`restores_iff`). `CleanupMap`
(`environment.cc`) erases what its iterator is at and goes on with that iterator, so that it runs
only over a map it has nothing to do for.

`MapOp` is a call, and `runSound_iff` is about all runs of calls.
-/

namespace Barry

namespace OpenSync

namespace IdMap

/-- `UnmapRid`. -/
def unmapRid (m : IdMap) (rid : UInt32) : IdMap :=
  m.eraseP (·.2 = rid)

/-- `Unmap`, of an iterator that is at an entry. -/
def unmap (m : IdMap) (p : Bytes × UInt32) : Option IdMap :=
  if p ∈ m then some (m.erase p) else none

/-- The entries, in the order of a `std::map`. -/
def byUid (m : IdMap) : IdMap :=
  List.insertionSort (fun p q => p.1 ≤ q.1) m

/-- A line of the file. -/
def entryLine (p : Bytes × UInt32) : Bytes :=
  decBytes p.2.toNat ++ 32 :: p.1 ++ [10]

/-- What `Save` writes. -/
def save (m : IdMap) : Bytes :=
  m.byUid.flatMap entryLine

/-- `ifs >> recordId >> std::ws`, and the line behind it. A stream that fails is left where it
is. -/
def readEntry (text : Bytes) : Except Bytes ((ℕ × Bytes) × Bytes) :=
  match extractDec 0xffffffff ⟨text, false⟩ with
  | (some n, ⟨rest, false⟩) =>
    match getline (rest.dropWhile isSpace) with
    | some (line, rest) => .ok ((n, line), rest)
    | none => .error []
  | (_, ⟨rest, _⟩) => .error rest

/-- What is left is shorter. -/
theorem length_lt_of_readEntry {text rest : Bytes} {e : ℕ × Bytes}
    (h : readEntry text = .ok (e, rest)) : rest.length < text.length := by
  have hle := length_extractDec_le 0xffffffff ⟨text, false⟩
  rw [readEntry] at h
  split at h
  · rename_i n left hread
    rw [hread] at hle
    split at h
    · rename_i line rest' hget
      obtain ⟨-, rfl⟩ := Prod.mk.inj (Except.ok.inj h)
      exact (length_lt_of_getline hget).trans_le
        ((List.dropWhile_sublist _).length_le.trans hle)
    · cases h
  · cases h

/-- The loop of `Load`, and what it returns. -/
def loadEntries (m : IdMap) (text : Bytes) : IdMap × Bool :=
  match _h : readEntry text with
  | .ok ((n, line), rest) =>
    loadEntries (if n ≠ 0 ∧ line ≠ [] then (m.map line (UInt32.ofNat n)).getD m else m) rest
  | .error rest => (m, rest = [])
termination_by text.length
decreasing_by exact length_lt_of_readEntry _h

/-- `Load`, of a file if there is one. -/
def load : Option Bytes → IdMap × Bool
  | some text => loadEntries [] text
  | none => ([], false)

/-- The loop of `CleanupMap`, from the entries its iterator has ahead of it. An entry that is erased
takes the iterator with it, which is incremented then. -/
def cleanup (table : RecordStateTable) (m : IdMap) : IdMap → Option IdMap
  | [] => some m
  | p :: ahead => if (table.getIndex p.2).isSome then cleanup table m ahead else none

/-! ## A bijection -/

/-- No two entries share a UID or a record ID, and none is blank. -/
structure Bijective (m : IdMap) : Prop where
  uids : (List.map Prod.fst m).Nodup
  rids : (List.map Prod.snd m).Nodup
  blank : ∀ p ∈ m, p.1 ≠ [] ∧ p.2 ≠ 0

variable {m m' : IdMap} {uid : Bytes} {rid : UInt32}

theorem mem_of_ridOf (h : m.ridOf uid = some rid) : (uid, rid) ∈ m := by
  obtain ⟨p, hp, rfl⟩ := Option.map_eq_some_iff.mp h
  obtain rfl : p.1 = uid := by simpa using List.find?_some hp
  exact List.mem_of_find?_eq_some hp

theorem mem_of_uidOf (h : m.uidOf rid = some uid) : (uid, rid) ∈ m := by
  obtain ⟨p, hp, rfl⟩ := Option.map_eq_some_iff.mp h
  obtain rfl : p.2 = rid := by simpa using List.find?_some hp
  exact List.mem_of_find?_eq_some hp

theorem ridOf_eq_none : m.ridOf uid = none ↔ uid ∉ List.map Prod.fst m := by
  rw [ridOf, Option.map_eq_none_iff, List.find?_eq_none]
  refine ⟨fun h hmem => ?_, fun h p hp he => h (of_decide_eq_true he ▸ List.mem_map_of_mem hp)⟩
  obtain ⟨p, hp, rfl⟩ := List.mem_map.mp hmem
  exact h p hp (decide_eq_true rfl)

theorem uidOf_eq_none : m.uidOf rid = none ↔ rid ∉ List.map Prod.snd m := by
  rw [uidOf, Option.map_eq_none_iff, List.find?_eq_none]
  refine ⟨fun h hmem => ?_, fun h p hp he => h (of_decide_eq_true he ▸ List.mem_map_of_mem hp)⟩
  obtain ⟨p, hp, rfl⟩ := List.mem_map.mp hmem
  exact h p hp (decide_eq_true rfl)

namespace Bijective

theorem ridOf_eq_some (h : m.Bijective) : m.ridOf uid = some rid ↔ (uid, rid) ∈ m := by
  refine ⟨mem_of_ridOf, fun hmem => ?_⟩
  cases hfind : m.ridOf uid with
  | none => exact absurd (List.mem_map_of_mem hmem) (ridOf_eq_none.mp hfind)
  | some rid' =>
    have he := List.inj_on_of_nodup_map h.uids (mem_of_ridOf hfind) hmem rfl
    rw [(Prod.mk.inj he).2]

theorem uidOf_eq_some (h : m.Bijective) : m.uidOf rid = some uid ↔ (uid, rid) ∈ m := by
  refine ⟨mem_of_uidOf, fun hmem => ?_⟩
  cases hfind : m.uidOf rid with
  | none => exact absurd (List.mem_map_of_mem hmem) (uidOf_eq_none.mp hfind)
  | some uid' =>
    have he := List.inj_on_of_nodup_map h.rids (mem_of_uidOf hfind) hmem rfl
    rw [(Prod.mk.inj he).1]

/-- What the map is for : UIDs for record IDs, and back. -/
def toPEquiv (h : m.Bijective) : PEquiv Bytes UInt32 :=
  ⟨m.ridOf, m.uidOf, fun _ _ => h.uidOf_eq_some.trans h.ridOf_eq_some.symm⟩

theorem nil : Bijective [] :=
  ⟨List.nodup_nil, List.nodup_nil, List.forall_mem_nil _⟩

theorem sublist (h : m.Bijective) (hs : List.Sublist m' m) : m'.Bijective :=
  ⟨h.uids.sublist (hs.map _), h.rids.sublist (hs.map _), fun p hp => h.blank p (hs.subset hp)⟩

theorem cons (h : m.Bijective) (huid : m.ridOf uid = none) (hrid : m.uidOf rid = none)
    (hne : uid ≠ [] ∧ rid ≠ 0) : Bijective ((uid, rid) :: m) := by
  refine ⟨List.nodup_cons.mpr ⟨ridOf_eq_none.mp huid, h.uids⟩,
    List.nodup_cons.mpr ⟨uidOf_eq_none.mp hrid, h.rids⟩, ?_⟩
  exact List.forall_mem_cons.mpr ⟨hne, h.blank⟩

theorem map (h : m.Bijective) (hmap : m.map uid rid = some m') : m'.Bijective := by
  obtain ⟨⟨huid, hrid, hnew, hfree⟩, rfl⟩ := map_eq_some.mp hmap
  exact h.cons hnew hfree ⟨huid, hrid⟩

theorem kept : Kept Bijective :=
  ⟨map, fun h _ => h.sublist List.filter_sublist⟩

/-- `Load` adds to the map by `Map`. -/
theorem loadEntries (h : m.Bijective) (text : Bytes) : (m.loadEntries text).1.Bijective := by
  fun_induction IdMap.loadEntries m text with
  | case1 m text n line rest hread ih =>
    refine ih ?_
    split
    · cases hmap : m.map line (UInt32.ofNat n) with
      | none => exact h
      | some m' => exact h.map hmap
    · exact h
  | case2 => exact h

end Bijective

/-! ## The file -/

/-- The lines of a file end at newlines. -/
def NoNewline (m : IdMap) : Prop :=
  ∀ p ∈ m, 10 ∉ p.1

/-- No UID starts with a blank. -/
def NoBlank (m : IdMap) : Prop :=
  ∀ p ∈ m, ∀ c ∈ p.1.head?, isSpace c = false

/-- `Load` of what `Save` wrote is the same map. -/
def Restores (m : IdMap) : Prop :=
  ∀ uid, (load (some m.save)).1.ridOf uid = m.ridOf uid

/-- A line is read up to its end, without the blanks its UID starts with. -/
theorem readEntry_line (rid : UInt32) (h : 10 ∉ uid) (hne : uid.dropWhile isSpace ≠ [])
    (rest : Bytes) :
    readEntry (entryLine (uid, rid) ++ rest) =
      .ok ((rid.toNat, uid.dropWhile isSpace), rest) := by
  have htext : entryLine (uid, rid) ++ rest = decBytes rid.toNat ++ 32 :: (uid ++ 10 :: rest) := by
    simp [entryLine]
  have hle : rid.toNat ≤ 0xffffffff := Nat.le_of_lt_succ rid.toNat_lt
  have hread := @extractDec_decBytes _ _ hle (32 :: (uid ++ 10 :: rest)) (by simp [isDigit])
  have hskip : (32 :: (uid ++ 10 :: rest)).dropWhile isSpace =
      uid.dropWhile isSpace ++ 10 :: rest := by
    rw [List.dropWhile_cons_of_pos (by decide), List.dropWhile_append]
    simp [hne]
  rw [readEntry, htext, hread]
  dsimp only
  rw [hskip, getline_append fun hmem => h ((List.dropWhile_sublist _).subset hmem)]

/-- Whatever the file, no UID that is read starts with a blank. -/
theorem not_isSpace_of_readEntry {text line rest : Bytes} {n : ℕ}
    (h : readEntry text = .ok ((n, line), rest)) : ∀ c ∈ line.head?, isSpace c = false := by
  rw [readEntry] at h
  split at h
  · rename_i k left hread
    cases hleft : left.dropWhile isSpace with
    | nil =>
      rw [hleft] at h
      cases h
    | cons c cs =>
      have hc : isSpace c = false := by
        have hhead := List.head?_dropWhile_not isSpace left
        rwa [hleft, List.head?_cons] at hhead
      rw [hleft, getline, if_neg (List.cons_ne_nil _ _)] at h
      obtain ⟨he, -⟩ := Prod.mk.inj (Except.ok.inj h)
      obtain ⟨-, rfl⟩ := Prod.mk.inj he
      have hne : c ≠ 10 := fun he => absurd hc (he ▸ by decide)
      rw [List.takeWhile_cons_of_pos (by simpa using hne), List.head?_cons]
      rintro d hd
      exact Option.some.inj hd ▸ hc
  · cases h

theorem loadEntries_noBlank (h : m.NoBlank) (text : Bytes) : (m.loadEntries text).1.NoBlank := by
  fun_induction loadEntries m text with
  | case1 m text n line rest hread ih =>
    refine ih ?_
    split
    · cases hmap : m.map line (UInt32.ofNat n) with
      | none => exact h
      | some m' =>
        obtain ⟨-, rfl⟩ := map_eq_some.mp hmap
        exact List.forall_mem_cons.mpr ⟨not_isSpace_of_readEntry hread, h⟩
    · exact h
  | case2 => exact h

/-- Lines are read back, the last one first. -/
theorem loadEntries_lines : ∀ (l m : IdMap), Bijective (l.reverse ++ m) → NoNewline l → NoBlank l →
    m.loadEntries (l.flatMap entryLine) = (l.reverse ++ m, true)
  | [], m, _, _, _ => by
    have hread : readEntry [] = .error [] := rfl
    rw [List.flatMap_nil, loadEntries]
    split
    · rename_i h
      rw [hread] at h
      cases h
    · rename_i h
      rw [hread] at h
      cases h
      rfl
  | (uid, rid) :: l, m, hm, hline, hblank => by
    obtain ⟨huid, hline⟩ := List.forall_mem_cons.mp hline
    obtain ⟨hhead, hblank⟩ := List.forall_mem_cons.mp hblank
    rw [List.reverse_cons, List.append_assoc, List.singleton_append] at hm ⊢
    have hnew : Bijective ((uid, rid) :: m) := hm.sublist (List.sublist_append_right _ _)
    obtain ⟨hne, hrid⟩ := hnew.blank _ List.mem_cons_self
    have hskip : uid.dropWhile isSpace = uid := by
      obtain ⟨c, cs, rfl⟩ := List.exists_cons_of_ne_nil hne
      rw [List.dropWhile_cons_of_neg (by simp [hhead c rfl])]
    have hread := readEntry_line rid huid (hskip.symm ▸ hne) (l.flatMap entryLine)
    have hmap : m.map uid rid = some ((uid, rid) :: m) :=
      map_eq_some.mpr ⟨⟨hne, hrid, ridOf_eq_none.mpr (List.nodup_cons.mp hnew.uids).1,
        uidOf_eq_none.mpr (List.nodup_cons.mp hnew.rids).1⟩, rfl⟩
    have hzero : rid.toNat ≠ 0 := fun h => hrid (UInt32.toNat_inj.mp h)
    rw [List.flatMap_cons, loadEntries]
    split
    · rename_i n line rest h
      rw [hread, hskip] at h
      cases h
      rw [if_pos ⟨hzero, hne⟩, UInt32.ofNat_toNat, hmap]
      exact loadEntries_lines l ((uid, rid) :: m) hm hline hblank
    · rename_i h
      rw [hread] at h
      cases h

theorem byUid_perm (m : IdMap) : List.Perm m.byUid m :=
  List.perm_insertionSort _ m

/-- A map is restored if and only if no UID starts with a blank. -/
theorem restores_iff (h : m.Bijective) (hline : m.NoNewline) : m.Restores ↔ m.NoBlank := by
  constructor
  · rintro hr ⟨uid, rid⟩ hp
    have hload := (hr uid).trans (h.ridOf_eq_some.mpr hp)
    exact loadEntries_noBlank (List.forall_mem_nil _) m.save _ (mem_of_ridOf hload)
  · intro hblank uid
    have hperm := byUid_perm m
    have hback : List.Perm (m.byUid.reverse ++ []) m := by
      rw [List.append_nil]
      exact (List.reverse_perm _).trans hperm
    have hbij : Bijective (m.byUid.reverse ++ []) :=
      ⟨(hback.map _).nodup_iff.mpr h.uids, (hback.map _).nodup_iff.mpr h.rids,
        fun p hp => h.blank p (hback.subset hp)⟩
    have hload := loadEntries_lines m.byUid [] hbij (fun p hp => hline p (hperm.subset hp))
      fun p hp => hblank p (hperm.subset hp)
    rw [load, save, hload]
    refine Option.ext fun rid => ?_
    rw [hbij.ridOf_eq_some, h.ridOf_eq_some]
    exact hback.mem_iff

/-! ## Runs -/

/-- A call, or `CleanupMap` with a state table. -/
inductive MapOp
  | map (uid : Bytes) (rid : UInt32)
  | unmapUid (uid : Bytes)
  | unmapRid (rid : UInt32)
  | unmap (p : Bytes × UInt32)
  | clear
  | load (file : Option Bytes)
  | cleanup (table : RecordStateTable)

/-- What a call leaves, unless it uses an iterator that is at no entry. -/
def step (m : IdMap) : MapOp → Option IdMap
  | .map uid rid => some ((m.map uid rid).getD m)
  | .unmapUid uid => some (m.unmapUid uid)
  | .unmapRid rid => some (m.unmapRid rid)
  | .unmap p => m.unmap p
  | .clear => some []
  | .load file => some (load file).1
  | .cleanup table => cleanup table m m.byUid

/-- A map without newlines is restored from its file, and no two entries of it share anything. -/
def Sound (m : IdMap) : Prop :=
  m.Bijective ∧ (m.NoNewline → m.Restores)

/-- `CleanupMap` comes to its end, and what is left are the entries with a record of the table. -/
def CleansUp (m : IdMap) (op : MapOp) : Prop :=
  ∀ table, op = .cleanup table → ∃ m', m.step op = some m' ∧
    ∀ p, p ∈ m' ↔ p ∈ m ∧ (table.getIndex p.2).isSome

/-- Every map of a run is sound, and every `CleanupMap` does what it is to do. -/
def RunSound (m : IdMap) : List MapOp → Prop
  | [] => m.Sound
  | op :: ops => m.Sound ∧ m.CleansUp op ∧ ∀ m', m.step op = some m' → m'.RunSound ops

/-- There is no UID that starts with a blank, if there is none with a newline. -/
def Plain (m : IdMap) : Prop :=
  m.NoNewline → m.NoBlank

/-- `CleanupMap` has nothing to remove. -/
def NothingLeft (m : IdMap) (op : MapOp) : Prop :=
  ∀ table, op = .cleanup table → ∀ p ∈ m, (table.getIndex p.2).isSome

/-- Every map of a run is plain, and no `CleanupMap` has anything to remove. -/
def RunPlain (m : IdMap) : List MapOp → Prop
  | [] => m.Plain
  | op :: ops => m.Plain ∧ m.NothingLeft op ∧ ∀ m', m.step op = some m' → m'.RunPlain ops

theorem cleanup_eq_some {table : RecordStateTable} : ∀ {ahead : IdMap},
    cleanup table m ahead = some m' ↔ (∀ p ∈ ahead, (table.getIndex p.2).isSome) ∧ m = m'
  | [] => by simp [cleanup]
  | p :: ahead => by
    rw [cleanup, List.forall_mem_cons]
    split
    · rename_i hp
      rw [cleanup_eq_some]
      simp [hp]
    · rename_i hp
      simp [hp]

theorem cleansUp_iff {op : MapOp} : m.CleansUp op ↔ m.NothingLeft op := by
  refine forall₂_congr fun table hop => ?_
  subst hop
  rw [step]
  constructor
  · rintro ⟨m', hm, -⟩ p hp
    exact (cleanup_eq_some.mp hm).1 p ((byUid_perm m).symm.subset hp)
  · intro hall
    exact ⟨m, cleanup_eq_some.mpr ⟨fun p hp => hall p ((byUid_perm m).subset hp), rfl⟩,
      fun p => ⟨fun hp => ⟨hp, hall p hp⟩, And.left⟩⟩

theorem Bijective.sound_iff (h : m.Bijective) : m.Sound ↔ m.Plain := by
  rw [Sound, and_iff_right h]
  exact forall_congr' fun hline => restores_iff h hline

/-- Every call keeps a bijection. -/
theorem Bijective.step {op : MapOp} (h : m.Bijective) (hstep : m.step op = some m') :
    m'.Bijective := by
  cases op with
  | map uid rid =>
    cases hstep
    cases hmap : m.map uid rid with
    | none => exact h
    | some m' => exact h.map hmap
  | unmapUid uid =>
    cases hstep
    exact h.sublist List.filter_sublist
  | unmapRid rid =>
    cases hstep
    exact h.sublist (List.eraseP_sublist)
  | unmap p =>
    rw [IdMap.step, unmap] at hstep
    split at hstep
    · cases hstep
      exact h.sublist (List.erase_sublist)
    · cases hstep
  | clear =>
    cases hstep
    exact .nil
  | load file =>
    cases hstep
    cases file with
    | none => exact .nil
    | some text => exact Bijective.nil.loadEntries text
  | cleanup table =>
    obtain ⟨-, rfl⟩ := cleanup_eq_some.mp hstep
    exact h

theorem Bijective.run_iff : ∀ {ops : List MapOp} {m : IdMap}, m.Bijective →
    (m.RunSound ops ↔ m.RunPlain ops)
  | [], _, h => h.sound_iff
  | _ :: _, _, h =>
    and_congr h.sound_iff (and_congr cleansUp_iff
      (forall₂_congr fun _ hstep => (h.step hstep).run_iff))

/-- In a run from the empty map, every map is a bijection that its file restores, and every
`CleanupMap` leaves the entries with a record, if and only if no UID starts with a blank (or has a
newline) and no `CleanupMap` has an entry to remove. -/
theorem runSound_iff (ops : List MapOp) :
    RunSound [] ops ↔ RunPlain [] ops :=
  Bijective.nil.run_iff

/-- The UID ` a` is not restored, and an entry without a record is erased
under the iterator of the loop. -/
theorem not_runSound_blank_cleanup : ¬RunSound [] [.map [32, 97] 5] ∧
    ¬RunSound [] [.map [97] 5, .cleanup .new] := by
  rw [Bijective.nil.run_iff, Bijective.nil.run_iff]
  constructor
  · rintro ⟨-, -, h⟩
    have hline : NoNewline [([32, 97], 5)] := by simp [NoNewline]
    exact absurd (h [([32, 97], 5)] rfl hline ([32, 97], 5) List.mem_cons_self 32 rfl) (by decide)
  · rintro ⟨-, -, h⟩
    exact absurd ((h [([97], 5)] rfl).2.1 .new rfl ([97], 5) List.mem_cons_self) (by decide)

end IdMap

end OpenSync

end Barry
