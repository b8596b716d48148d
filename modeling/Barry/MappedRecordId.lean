import Barry.IdMap
import Barry.Record
import Mathlib.Data.UInt

/-!
# The number of a UID

`GetMappedRecordId` (`environment.cc`) gives the number that the id map has for a UID, and maps the
UID first if it is new : to the number it starts with, or to an ID that is made. The number is an
`unsigned long`, of which the map keeps 32 bits. At the end of the text `sscanf` returns `EOF`,
which is not 0, and the number is what the variable had before. A blank UID is refused by the map,
and the loop that makes IDs has no other end.

`agrees_iff` says when the call returns the number that the map has then.
-/

namespace Barry

namespace OpenSync

open IdMap

/-- `sscanf(uid.c_str(), "%lu", &RecordId)`, unless it returns 0. -/
def scanLong (uid : Bytes) (unset : UInt64) : Option UInt64 :=
  if (cStr uid).dropWhile isSpace = [] then some unset
  else (scanInt (cStr uid)).map fun p => UInt64.ofNat (toULong p.1)

/-- The map takes none of the numbers it is offered. -/
theorem IdMap.bind_map_eq_none {α : Type} {m : IdMap} {uid : Bytes} {o : Option α} {f : α → UInt32}
    (h : uid = [] ∨ ∀ n, o = some n → f n = 0 ∨ m.uidOf (f n) ≠ none) :
    (o.bind fun n => (m.map uid (f n)).map (n, ·)) = none := by
  rw [Option.bind_eq_none_iff]
  intro n hn
  rw [Option.map_eq_none_iff]
  cases hmap : m.map uid (f n) with
  | none => rfl
  | some m' =>
    obtain ⟨⟨huid, hne, -, hfree⟩, -⟩ := map_eq_some.mp hmap
    rcases h with he | hall
    · exact (huid he).elim
    · exact ((hall n hn).elim hne fun htaken => htaken hfree).elim

namespace SyncState

/-- `GetMappedRecordId`, with the number as it is returned. -/
def longRecordId (s : SyncState) (fuel : ℕ) (uid : Bytes) (unset : UInt64) :
    Option (UInt64 × SyncState) :=
  match s.idMap.ridOf uid with
  | some rid => some (rid.toUInt64, s)
  | none =>
    match (scanLong uid unset).bind fun n => (s.idMap.map uid n.toUInt32).map (n, ·) with
    | some (n, idMap) => some (n, { s with idMap })
    | none => (s.mapNewRecordId uid fuel).map fun p => (p.1.toUInt64, p.2)

variable {s s' : SyncState} {uid : Bytes} {unset n : UInt64} {id : UInt32}

/-- Its callers store the number in 32 bits. -/
theorem getMappedRecordId_eq (h : cStr uid = uid) (fuel : ℕ) :
    s.getMappedRecordId fuel uid unset.toUInt32 =
      (s.longRecordId fuel uid unset).map fun p => (p.1.toUInt32, p.2) := by
  have hscan : scanRecordId uid unset.toUInt32 = (scanLong uid unset).map UInt64.toUInt32 := by
    rw [scanRecordId, scanLong, h]
    split
    · rfl
    · rw [Option.map_map]
      refine congrArg (Option.map · (scanInt uid)) (funext fun p => ?_)
      rw [Function.comp_apply, UInt64.toUInt32_ofNat']
  rw [getMappedRecordId, longRecordId, hscan]
  cases s.idMap.ridOf uid with
  | some rid => simp
  | none =>
    cases hlong : scanLong uid unset with
    | none => simp [Option.map_map, Function.comp_def]
    | some n =>
      cases hmap : s.idMap.map uid n.toUInt32 with
      | none => simp [hmap, Option.map_map, Function.comp_def]
      | some m => simp [hmap]

/-- The loop ends if an ID is free, at the latest when it comes to that. -/
theorem exists_mapNewRecordId (huid : uid ≠ []) (k : ℕ) : ∀ {s : SyncState},
    s.idMap.ridOf uid = none → s.Free (s.table.lastNewRecordId + 1 + UInt32.ofNat k) →
      ∃ p, ∀ fuel, k < fuel → s.mapNewRecordId uid fuel = some p := by
  induction k using Nat.strong_induction_on with
  | _ k ih =>
    intro s hnew hfree
    obtain ⟨made, hmade⟩ := Option.isSome_iff_exists.mp
      (RecordStateTable.makeNewRecordId_isSome_of_notMem hfree.2.1)
    have hmake : s.makeNewRecordId =
        some (made, { s with table := { s.table with lastNewRecordId := made } }) := by
      rw [makeNewRecordId, hmade, Option.map_some]
    obtain ⟨-, -, j, hj, hpassed⟩ := makeNewRecordId_eq_add hmake
    have hle : j ≤ k := Nat.le_of_not_lt fun hlt => hfree.2.1 (hpassed k hlt)
    cases hmap : s.idMap.map uid made with
    | some idMap =>
      refine ⟨(made, { s with table := { s.table with lastNewRecordId := made }, idMap }), ?_⟩
      intro fuel hfuel
      obtain ⟨fuel, rfl⟩ := Nat.exists_eq_add_of_lt hfuel
      simp only [mapNewRecordId, hmake, hmap]
    | none =>
      have hne : j ≠ k := fun he => not_free_of_map huid hnew hmap (hj ▸ he ▸ hfree)
      obtain ⟨i, rfl⟩ := Nat.exists_eq_add_of_lt (Nat.lt_of_le_of_ne hle hne)
      have hnext : made + 1 + UInt32.ofNat i =
          s.table.lastNewRecordId + 1 + UInt32.ofNat (j + i + 1) := by
        rw [hj, UInt32.ofNat_add, UInt32.ofNat_add, UInt32.ofNat_one]
        ac_rfl
      obtain ⟨p, hp⟩ := ih i (by omega)
        (s := { s with table := { s.table with lastNewRecordId := made } }) hnew
        (show s.Free (made + 1 + UInt32.ofNat i) from hnext ▸ hfree)
      refine ⟨p, fun fuel hfuel => ?_⟩
      obtain ⟨fuel, rfl⟩ := Nat.exists_eq_add_of_lt hfuel
      simp only [mapNewRecordId, hmake, hmap]
      exact hp _ (by omega)

/-- The call returns a number that is not 0, the map has that number for the UID and for no other,
and the other UIDs have the numbers they had. -/
def Agrees (s : SyncState) (uid : Bytes) (unset : UInt64) : Prop :=
  ∃ n s', (∃ k, ∀ fuel, k < fuel → s.longRecordId fuel uid unset = some (n, s')) ∧ n ≠ 0 ∧
    (∃ rid : UInt32, rid.toUInt64 = n ∧ ∀ uid', s'.idMap.ridOf uid' = some rid ↔ uid' = uid) ∧
    ∀ uid', uid' ≠ uid → s'.idMap.ridOf uid' = s.idMap.ridOf uid'

/-- The map takes the number a UID starts with. -/
def Takes (s : SyncState) (uid : Bytes) (unset n : UInt64) : Prop :=
  scanLong uid unset = some n ∧ n.toUInt32 ≠ 0 ∧ s.idMap.uidOf n.toUInt32 = none

/-- A UID is mapped, or it is not blank and has a number that the map takes and that fits in 32
bits, or none that it takes while an ID is free. -/
def Settled (s : SyncState) (uid : Bytes) (unset : UInt64) : Prop :=
  (s.idMap.ridOf uid).isSome ∨ uid ≠ [] ∧
    ((∃ n, s.Takes uid unset n ∧ n < 2 ^ 32) ∨ (∀ n, ¬s.Takes uid unset n) ∧ ∃ id, s.Free id)

theorem longRecordId_of_takes (huid : uid ≠ []) (hnew : s.idMap.ridOf uid = none)
    (h : s.Takes uid unset n) (fuel : ℕ) :
    s.longRecordId fuel uid unset = some (n, { s with idMap := (uid, n.toUInt32) :: s.idMap }) := by
  have hmap := map_eq_some.mpr ⟨⟨huid, h.2.1, hnew, h.2.2⟩, rfl⟩
  simp only [longRecordId, hnew, h.1, Option.bind_some, hmap, Option.map_some]

theorem longRecordId_of_not_takes (hnew : s.idMap.ridOf uid = none)
    (h : uid = [] ∨ ∀ n, ¬s.Takes uid unset n) (fuel : ℕ) :
    s.longRecordId fuel uid unset =
      (s.mapNewRecordId uid fuel).map fun p => (p.1.toUInt64, p.2) := by
  have hnone : ((scanLong uid unset).bind fun n => (s.idMap.map uid n.toUInt32).map (n, ·)) =
      none := by
    refine bind_map_eq_none (h.imp_right fun hall n hn => ?_)
    by_contra hor
    rw [not_or, not_not] at hor
    exact hall n ⟨hn, hor⟩
  simp only [longRecordId, hnew, hnone]

/-- What the map has once a UID is mapped. -/
theorem ridOf_cons_iff {m : IdMap} {rid : UInt32} (hrid : m.uidOf rid = none) (uid' : Bytes) :
    IdMap.ridOf ((uid, rid) :: m) uid' = some rid ↔ uid' = uid := by
  refine ⟨fun h => ?_, fun h => h ▸ ridOf_cons⟩
  rcases List.mem_cons.mp (mem_of_ridOf h) with he | hmem
  · exact (Prod.mk.inj he).1
  · exact absurd (List.mem_map_of_mem hmem) (uidOf_eq_none.mp hrid)

theorem ridOf_cons_of_ne {m : IdMap} {rid : UInt32} {uid' : Bytes} (h : uid' ≠ uid) :
    IdMap.ridOf ((uid, rid) :: m) uid' = m.ridOf uid' := by
  rw [IdMap.ridOf, List.find?_cons_of_neg (by simpa using h.symm), IdMap.ridOf]

/-- A mapped UID is given its number. -/
theorem Agrees.of_mapped (hm : s.idMap.Bijective) (h : s.idMap.ridOf uid = some id) :
    s.Agrees uid unset := by
  refine ⟨id.toUInt64, s, ⟨0, fun fuel _ => by simp only [longRecordId, h]⟩, fun hz => ?_,
    ⟨id, rfl, fun uid' => ⟨fun h' => ?_, fun h' => h' ▸ h⟩⟩, fun _ _ => rfl⟩
  · refine (hm.blank _ (mem_of_ridOf h)).2 (UInt32.toNat_inj.mp ?_)
    simpa using congrArg UInt64.toNat hz
  · exact hm.toPEquiv.inj (Option.mem_def.mpr h') (Option.mem_def.mpr h)

/-- A call that maps a UID leaves the number that it returns. -/
theorem Agrees.of_map {rid : UInt32} (hrid : rid ≠ 0) (hfree : s.idMap.uidOf rid = none)
    (h : ∃ k, ∀ fuel, k < fuel → s.longRecordId fuel uid unset = some (rid.toUInt64, s'))
    (hidMap : s'.idMap = (uid, rid) :: s.idMap) : s.Agrees uid unset := by
  refine ⟨rid.toUInt64, s', h, fun hz => hrid (UInt32.toNat_inj.mp ?_), ⟨rid, rfl, ?_⟩, ?_⟩
  · simpa using congrArg UInt64.toNat hz
  · rw [hidMap]
    exact ridOf_cons_iff hfree
  · rw [hidMap]
    exact fun uid' hne => ridOf_cons_of_ne hne

/-- A number fits in 32 bits if they are all of it. -/
theorem toUInt32_toUInt64_iff : n.toUInt32.toUInt64 = n ↔ n < 2 ^ 32 := by
  rw [← UInt64.toNat_inj, UInt64.lt_iff_toNat_lt, UInt32.toNat_toUInt64, UInt64.toNat_toUInt32]
  change n.toNat % 2 ^ 32 = n.toNat ↔ n.toNat < 2 ^ 32
  omega

/-- The call returns the number that the map has then if and only if the UID is settled. -/
theorem agrees_iff (hm : s.idMap.Bijective) : s.Agrees uid unset ↔ s.Settled uid unset := by
  cases hnew : s.idMap.ridOf uid with
  | some id =>
    exact ⟨fun _ => .inl (by rw [hnew]; rfl), fun _ => .of_mapped hm hnew⟩
  | none =>
    have hnot : ¬(s.idMap.ridOf uid).isSome = true := by simp [hnew]
    rw [Settled, or_iff_right hnot]
    constructor
    · rintro ⟨n, s', ⟨k, hk⟩, -, ⟨rid, rfl, hrid⟩, -⟩
      have hcall := hk (k + 1) (Nat.lt_succ_self k)
      by_cases htakes : uid ≠ [] ∧ ∃ n, s.Takes uid unset n
      · obtain ⟨huid, n, hn⟩ := htakes
        rw [longRecordId_of_takes huid hnew hn] at hcall
        obtain ⟨hid, rfl⟩ := Prod.mk.inj (Option.some.inj hcall)
        have hsame := Option.some.inj (ridOf_cons.symm.trans ((hrid uid).mpr rfl))
        exact ⟨huid, .inl ⟨n, hn, toUInt32_toUInt64_iff.mp (hsame ▸ hid.symm)⟩⟩
      · have hnone : uid = [] ∨ ∀ n, ¬s.Takes uid unset n := by
          rw [not_and_or, not_not, not_exists] at htakes
          exact htakes
        rw [longRecordId_of_not_takes hnew hnone] at hcall
        obtain ⟨p, hp, -⟩ := Option.map_eq_some_iff.mp hcall
        obtain ⟨huid, -, hfree, -⟩ := mapNewRecordId_eq_add hnew hp
        exact ⟨huid, .inr ⟨hnone.resolve_left huid, _, hfree⟩⟩
    · rintro ⟨huid, ⟨n, hn, hlt⟩ | ⟨hnone, id, hfree⟩⟩
      · have hcall := longRecordId_of_takes huid hnew hn
        rw [← toUInt32_toUInt64_iff.mpr hlt, UInt32.toUInt32_toUInt64] at hcall
        exact .of_map hn.2.1 hn.2.2 ⟨0, fun fuel _ => hcall fuel⟩ rfl
      · have hid : s.table.lastNewRecordId + 1 +
            UInt32.ofNat (id - (s.table.lastNewRecordId + 1)).toNat = id := by
          rw [UInt32.ofNat_toNat, UInt32.add_comm, UInt32.sub_add_cancel]
        obtain ⟨⟨made, s'⟩, hloop⟩ := exists_mapNewRecordId huid _ hnew (hid.symm ▸ hfree)
        obtain ⟨-, hidMap, hmade, -⟩ := mapNewRecordId_eq_add hnew (hloop _ (Nat.lt_succ_self _))
        have hcall := longRecordId_of_not_takes hnew (.inr hnone)
        exact .of_map hmade.1 hmade.2.2
          ⟨_, fun fuel hfuel => (hcall fuel).trans (congrArg _ (hloop fuel hfuel))⟩ hidMap

/-- No entries, and no state table. -/
def noEntries : SyncState :=
  ⟨[], [], .new, []⟩

/-- Two records on the device, and a UID that is mapped to the ID behind theirs. -/
def twoRecords : SyncState :=
  ⟨[1, 2], [([97], 3)], ⟨[⟨0, 1, false, 0, []⟩, ⟨1, 2, false, 0, []⟩], 0⟩, []⟩

/-- The UID `b`, which is no number, is given the ID 4 in the second turn of the loop : the first
one that is made, 3, has the UID `a`. -/
theorem agrees_fourth : twoRecords.Agrees [98] 0 ∧
    (twoRecords.longRecordId 1 [98] 0).map Prod.fst = none ∧
    (twoRecords.longRecordId 2 [98] 0).map Prod.fst = some 4 := by
  have hbijective : twoRecords.idMap.Bijective :=
    .cons .nil rfl rfl ⟨List.cons_ne_nil _ _, by decide⟩
  have hscan : scanLong [98] 0 = none := by decide
  refine ⟨(agrees_iff hbijective).mpr
    (.inr ⟨List.cons_ne_nil _ _, .inr ⟨fun n htakes => ?_, 4, ?_⟩⟩),
    by decide, by decide⟩
  · cases hscan.symm.trans htakes.1
  · exact ⟨by decide, by decide, by decide⟩

/-- A blank UID is refused until no fuel is left, and of 4294967301 the map has 5. -/
theorem not_agrees_blank_long : ¬noEntries.Agrees [] 0 ∧
    ¬noEntries.Agrees [52, 50, 57, 52, 57, 54, 55, 51, 48, 49] 0 := by
  constructor
  · rintro ⟨n, s', ⟨k, hk⟩, -⟩
    have hcall := hk (k + 1) (Nat.lt_succ_self k)
    rw [longRecordId_of_not_takes rfl (.inl rfl)] at hcall
    obtain ⟨p, hp, -⟩ := Option.map_eq_some_iff.mp hcall
    exact (mapNewRecordId_eq_add rfl hp).1 rfl
  · rintro ⟨n, s', ⟨k, hk⟩, -, ⟨rid, rfl, hrid⟩, -⟩
    have htakes : noEntries.Takes [52, 50, 57, 52, 57, 54, 55, 51, 48, 49] 0 4294967301 :=
      ⟨by decide, by decide, rfl⟩
    have hcall := hk (k + 1) (Nat.lt_succ_self k)
    rw [longRecordId_of_takes (List.cons_ne_nil _ _) rfl htakes] at hcall
    have hnum := congrArg UInt64.toNat (Prod.mk.inj (Option.some.inj hcall)).1
    have hlt := rid.toNat_lt
    rw [UInt32.toNat_toUInt64] at hnum
    simp at hnum
    omega

end SyncState

end OpenSync

end Barry
